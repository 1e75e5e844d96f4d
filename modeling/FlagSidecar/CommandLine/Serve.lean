import FlagSidecar.CommandLine.Failure

/-!
# FlagSidecar.CommandLine.Serve: the program that serves

It loads its settings, builds what the settings ask for and takes its path. Whatever of this fails is
the end of it; else it serves until it is told to stop.
-/

namespace FlagSidecar.CommandLine

def serveGrammar : Grammar where
  options := [{ name := "config", letter := some 'c', accepts := (!·.isEmpty) }]
  hasVersion := true

def serveHelp : String :=
  "Serve feature-flag evaluations to local SDK clients over a Unix socket\n\n" ++
  "Usage: splitd [OPTIONS]\n"

/-- What a daemon meets when it starts. -/
structure Surroundings where
  files : Files
  /-- Where the environment says that the settings are. -/
  environment : Option String := none
  /-- What answers uploads. -/
  server : HttpRequest → HttpReply
  place : String → SocketPath

/-- A daemon that serves, or the end of the program. -/
def serve (args : List String) (s : Surroundings) : Except Exit Daemon := do
  let p ← (serveGrammar.parse args).mapError
    (.ofStop serveHelp ("splitd " ++ versionNumber ++ "\n"))
  let c ← (Config.load s.files (p.value? "config") s.environment).mapError
    (.failed <| .configuration ·)
  let backends ← (Backends.ofConfig s.files s.server c).mapError (.failed <| .initialisation ·)
  (Daemon.start c backends (s.place c.link.socketPath)).1.mapError (.failed <| .service ·)

end FlagSidecar.CommandLine
