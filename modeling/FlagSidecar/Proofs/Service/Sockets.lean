import FlagSidecar.Proofs.Service.Acceptor
import Mathlib.Data.List.Pairwise

/-!
# FlagSidecar.Proofs.Service.Sockets: what becomes of the sockets that are taken

A socket that was taken is waiting, accepted, rejected or dropped, and only one is waiting or was dropped.
Numbers are given to sockets as they are taken, so those of the accepted ones increase.

Main statements: `Acceptor.Accounted.step`, `Acceptor.Numbered.step`, `Acceptor.pairwise_numbers`.
-/

namespace FlagSidecar.Acceptor

variable {a a' : Acceptor} {event : Option AcceptorEvent} {events : List AcceptorEvent}

/-! ## Sockets -/

section Events

variable (events more : List AcceptorEvent)

@[simp]
theorem taken_append : taken (events ++ more) = taken events ++ taken more := List.filterMap_append

@[simp]
theorem admitted_append : admitted (events ++ more) = admitted events ++ admitted more :=
  List.filterMap_append

@[simp]
theorem rejections_append : rejections (events ++ more) = rejections events ++ rejections more :=
  List.filterMap_append

@[simp]
theorem dropped_append : dropped (events ++ more) = dropped events ++ dropped more :=
  List.filterMap_append

variable (e : AcceptorEvent)

@[simp]
theorem taken_singleton : taken [e] = e.taken?.toList := List.filterMap_cons

@[simp]
theorem admitted_singleton : admitted [e] = e.admitted?.toList := List.filterMap_cons

@[simp]
theorem rejections_singleton : rejections [e] = e.rejected?.toList := List.filterMap_cons

@[simp]
theorem dropped_singleton : dropped [e] = e.dropped?.toList := List.filterMap_cons

end Events

/-- **Every socket is accounted for**: it is accepted or rejected and counted as such, or it is the one that
was dropped or waits. -/
structure Accounted (events : List AcceptorEvent) (a : Acceptor) : Prop where
  accepted : a.accepted = UInt64.ofNat (admitted events).length
  rejected : a.rejected = UInt64.ofNat (rejections events).length
  taken : (taken events).length =
    (admitted events).length + (rejections events).length + (a.phase.pending ++ dropped events).length
  one : (a.phase.pending ++ dropped events).length ≤ 1
  dropped : a.phase.leaves = false → dropped events = []

namespace Accounted

theorem start (limit : Nat) : Accounted [] { limit } := ⟨rfl, rfl, rfl, Nat.zero_le 1, fun _ => rfl⟩

/-- A step that neither takes a socket nor decides about one. -/
theorem congr (h : Accounted events a) {more : List AcceptorEvent} (htaken : Acceptor.taken more = [])
    (hadmitted : admitted more = []) (hrejections : rejections more = [])
    (hdropped : Acceptor.dropped more = []) (haccepted : a'.accepted = a.accepted)
    (hrejected : a'.rejected = a.rejected) (hpending : a'.phase.pending.length = a.phase.pending.length)
    (hleaves : a'.phase.leaves = false → a.phase.leaves = false) : Accounted (events ++ more) a' := by
  have hlength : (a'.phase.pending ++ Acceptor.dropped events).length =
      (a.phase.pending ++ Acceptor.dropped events).length := by
    rw [List.length_append, List.length_append, hpending]
  constructor
  · rw [haccepted, admitted_append, hadmitted, List.append_nil]
    exact h.accepted
  · rw [hrejected, rejections_append, hrejections, List.append_nil]
    exact h.rejected
  · simp only [taken_append, admitted_append, rejections_append, dropped_append, htaken, hadmitted,
      hrejections, hdropped, List.append_nil, hlength]
    exact h.taken
  · rw [dropped_append, hdropped, List.append_nil, hlength]
    exact h.one
  · intro hopen
    rw [dropped_append, hdropped, List.append_nil]
    exact h.dropped (hleaves hopen)

theorem advance {s : AcceptorStep} (h : Accounted events a) (hstep : Advances a s event a') :
    Accounted (events ++ event.toList) a' := by
  obtain ⟨haccepted, hrejected, htaken, hone, hdropped⟩ := id h
  cases hstep with
  | take hphase =>
    -- a new socket waits, and none was dropped
    have hnone := hdropped (by rw [hphase]; rfl)
    rw [hphase, hnone] at htaken
    constructor <;> simp_all
  | stumble hphase => exact h.congr rfl rfl rfl rfl rfl rfl rfl id
  | fail hphase e => exact h.congr rfl rfl rfl rfl rfl rfl (by rw [hphase]; rfl) (nomatch ·)
  | grant hphase hfree =>
    exact h.congr rfl rfl rfl rfl rfl rfl (by rw [hphase]; rfl) fun _ => by rw [hphase]; rfl
  | expire hphase =>
    -- the socket that waited is rejected, and counted
    have hnone := hdropped (by rw [hphase]; rfl)
    rw [hphase, hnone] at htaken
    constructor <;> simp_all [UInt64.ofNat_add, Nat.add_assoc]
  | countAccepted hphase =>
    -- the socket that waited is accepted, and counted
    have hnone := hdropped (by rw [hphase]; rfl)
    rw [hphase, hnone] at htaken
    constructor <;> simp_all [UInt64.ofNat_add, Nat.add_right_comm]
  | countActive hphase =>
    exact h.congr rfl rfl rfl rfl rfl rfl (by rw [hphase]; rfl) fun _ => by rw [hphase]; rfl
  | spawn hphase =>
    exact h.congr rfl rfl rfl rfl rfl rfl (by rw [hphase]; rfl) fun _ => by rw [hphase]; rfl
  | stop hphase => exact h.congr rfl rfl rfl rfl rfl rfl (by rw [hphase]; rfl) (nomatch ·)
  | drop hphase =>
    -- the socket that waited is dropped, the first that is
    have hnone := hdropped (by rw [hphase]; rfl)
    rw [hphase, hnone] at htaken
    constructor <;> simp_all
  | close hphase => exact h.congr rfl rfl rfl rfl rfl rfl (by rw [hphase]; rfl) (nomatch ·)
  | giveUp hphase => exact h.congr rfl rfl rfl rfl rfl rfl (by rw [hphase]; rfl) (nomatch ·)
  | conclude hphase hall =>
    refine h.congr rfl rfl rfl rfl rfl rfl ?_ (nomatch ·)
    obtain hphase | hphase := hphase <;> rw [hphase] <;> rfl

/-- What tasks do is nothing to sockets. -/
theorem proceed {s : AcceptorStep} {task : Nat} (h : Accounted events a)
    (hstep : Proceeds a task s event a') : Accounted (events ++ event.toList) a' := by
  cases hstep with
  | finish hget how hcut => exact h.congr rfl rfl rfl rfl rfl rfl rfl id
  | discount hget => exact h.congr rfl rfl rfl rfl rfl rfl rfl id
  | release hget => exact h.congr rfl rfl rfl rfl rfl rfl rfl id
  | join hget => exact h.congr rfl rfl rfl rfl rfl rfl rfl id

theorem step {s : AcceptorStep} (h : Accounted events a) (hstep : Steps a s event a') :
    Accounted (events ++ event.toList) a' := by
  cases hstep with
  | advance hstep => exact h.advance hstep
  | proceed task hstep => exact h.proceed hstep

end Accounted

/-! ## Numbers -/

/-- The first numbers that are given to sockets. They begin with one, and start again when all are used. -/
def numbers (count : Nat) : List ConnectionId := (List.range count).map fun k => UInt64.ofNat (k + 1)

theorem numbers_succ (count : Nat) : numbers (count + 1) = numbers count ++ [UInt64.ofNat (count + 1)] := by
  rw [numbers, List.range_succ, List.map_append]
  rfl

/-- As long as there are numbers that were not used they increase. -/
theorem pairwise_numbers {count : Nat} (h : count < 2 ^ 64) : (numbers count).Pairwise (· < ·) := by
  rw [numbers, List.pairwise_map]
  refine List.pairwise_lt_range.imp_of_mem ?_
  intro i j hi hj hlt
  rw [List.mem_range] at hi hj
  rw [UInt64.lt_iff_toNat_lt, UInt64.toNat_ofNat', UInt64.toNat_ofNat']
  rw [Nat.mod_eq_of_lt (by omega), Nat.mod_eq_of_lt (by omega)]
  omega

/-- **Sockets are numbered as they are taken**, and each accepted one has a task, or will have one. -/
structure Numbered (events : List AcceptorEvent) (a : Acceptor) : Prop where
  taken : taken events = numbers (taken events).length
  nextId : a.nextId = UInt64.ofNat ((Acceptor.taken events).length + 1)
  sublist : (admitted events ++ a.phase.pending).Sublist (Acceptor.taken events)
  tasks : admitted events = a.tasks.map (·.connection) ++ a.phase.unassigned

namespace Numbered

theorem start (limit : Nat) : Numbered [] { limit } := ⟨rfl, rfl, .slnil, rfl⟩

/-- A step that takes no socket. -/
theorem congr (h : Numbered events a) {more : List AcceptorEvent} (htaken : Acceptor.taken more = [])
    (hnextId : a'.nextId = a.nextId)
    (hsublist : (admitted (events ++ more) ++ a'.phase.pending).Sublist (admitted events ++ a.phase.pending))
    (htasks : admitted (events ++ more) = a'.tasks.map (·.connection) ++ a'.phase.unassigned) :
    Numbered (events ++ more) a' := by
  have hsame : Acceptor.taken (events ++ more) = Acceptor.taken events := by
    rw [taken_append, htaken, List.append_nil]
  constructor
  · rw [hsame]
    exact h.taken
  · rw [hsame, hnextId]
    exact h.nextId
  · rw [hsame]
    exact hsublist.trans h.sublist
  · exact htasks

/-- A step that neither takes nor accepts a socket, and gives none to a task. -/
theorem quiet (h : Numbered events a) {more : List AcceptorEvent} (htaken : Acceptor.taken more = [])
    (hadmitted : admitted more = []) (hnextId : a'.nextId = a.nextId)
    (htasks : a'.tasks.map (·.connection) = a.tasks.map (·.connection))
    (hpending : a'.phase.pending.Sublist a.phase.pending)
    (hunassigned : a'.phase.unassigned = a.phase.unassigned) : Numbered (events ++ more) a' := by
  have hsame : admitted (events ++ more) = admitted events := by
    rw [admitted_append, hadmitted, List.append_nil]
  refine h.congr htaken hnextId ?_ ?_
  · rw [hsame]
    exact hpending.append_left _
  · rw [hsame, htasks, hunassigned]
    exact h.tasks

theorem advance {s : AcceptorStep} (h : Numbered events a) (hstep : Advances a s event a') :
    Numbered (events ++ event.toList) a' := by
  cases hstep with
  | take hphase =>
    obtain ⟨htaken, hnextId, hsublist, htasks⟩ := h
    rw [hphase] at hsublist htasks
    constructor
    · simpa [numbers_succ, ← htaken] using hnextId
    · simp [UInt64.ofNat_add, hnextId]
    · simpa using hsublist.append_right [a.nextId]
    · simpa using htasks
  | stumble hphase => exact h.quiet rfl rfl rfl rfl (List.Sublist.refl _) rfl
  | fail hphase e => exact h.quiet rfl rfl rfl rfl (List.nil_sublist _) (by rw [hphase]; rfl)
  | grant hphase hfree =>
    exact h.quiet rfl rfl rfl rfl (by rw [hphase]; exact List.Sublist.refl _) (by rw [hphase]; rfl)
  | expire hphase => exact h.quiet rfl rfl rfl rfl (List.nil_sublist _) (by rw [hphase]; rfl)
  | countAccepted hphase =>
    have htasks := h.tasks
    rw [hphase] at htasks
    exact h.congr rfl rfl (by simp [hphase]) (by simpa using htasks)
  | countActive hphase => exact h.quiet rfl rfl rfl rfl (List.nil_sublist _) (by rw [hphase]; rfl)
  | spawn hphase =>
    -- the socket that had no task yet has the last one now
    have htasks := h.tasks
    rw [hphase] at htasks
    exact h.congr rfl rfl (by simp [hphase]) (by simpa using htasks)
  | stop hphase => exact h.quiet rfl rfl rfl rfl (List.nil_sublist _) (by rw [hphase]; rfl)
  | drop hphase => exact h.quiet rfl rfl rfl rfl (List.nil_sublist _) (by rw [hphase]; rfl)
  | close hphase => exact h.quiet rfl rfl rfl rfl (List.nil_sublist _) (by rw [hphase]; rfl)
  | giveUp hphase => exact h.quiet rfl rfl rfl rfl (List.nil_sublist _) (by rw [hphase]; rfl)
  | conclude hphase hall =>
    refine h.quiet rfl rfl rfl rfl (List.nil_sublist _) ?_
    obtain hphase | hphase := hphase <;> rw [hphase] <;> rfl

/-- A task keeps its connection. -/
theorem map_connection_withTask {task : Nat} {id : ConnectionId} {before : TaskStage}
    (h : a.tasks[task]? = some ⟨id, before⟩) (after : TaskStage) :
    (a.withTask task id after).tasks.map (·.connection) = a.tasks.map (·.connection) := by
  show (a.tasks.set task ⟨id, after⟩).map (·.connection) = _
  have hid : (a.tasks.map (·.connection))[task]? = some id := by
    rw [List.getElem?_map, h]
    rfl
  obtain ⟨hlt, rfl⟩ := List.getElem?_eq_some_iff.mp hid
  rw [List.map_set]
  exact List.set_getElem_self hlt

theorem proceed {s : AcceptorStep} {task : Nat} (h : Numbered events a)
    (hstep : Proceeds a task s event a') : Numbered (events ++ event.toList) a' := by
  cases hstep with
  | finish hget how hcut =>
    exact h.quiet rfl rfl rfl (map_connection_withTask hget _) (List.Sublist.refl _) rfl
  | discount hget =>
    exact h.quiet rfl rfl rfl (map_connection_withTask hget _) (List.Sublist.refl _) rfl
  | release hget =>
    exact h.quiet rfl rfl rfl (map_connection_withTask hget _) (List.Sublist.refl _) rfl
  | join hget => exact h.quiet rfl rfl rfl (map_connection_withTask hget _) (List.Sublist.refl _) rfl

theorem step {s : AcceptorStep} (h : Numbered events a) (hstep : Steps a s event a') :
    Numbered (events ++ event.toList) a' := by
  cases hstep with
  | advance hstep => exact h.advance hstep
  | proceed task hstep => exact h.proceed hstep

end Numbered

end FlagSidecar.Acceptor
