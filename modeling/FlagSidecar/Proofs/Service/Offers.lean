import FlagSidecar.Proofs.Queue.FanIn
import FlagSidecar.Proofs.Service.Session
import FlagSidecar.Service.Records

/-!
# FlagSidecar.Proofs.Service.Offers: what a request does to the queues

Carrying out an action changes the queues by one offer at most: a batch of impressions or one event,
under one tag. The tag is the tag of the registration, and the queues of other tags stay as they are.

Main statements: `Records.snd_perform`, `Session.tag_of_offer?_plan`, `Records.agreeOn_offer`.
-/

namespace FlagSidecar

/-- What is offered to the queues at once. -/
inductive Offer where
  | impressions (tag : ClientTag) (batch : List Impression)
  | event (tag : ClientTag) (event : Event)
deriving DecidableEq

def Offer.tag : Offer → ClientTag
  | impressions tag _ => tag
  | event tag _ => tag

/-- What carrying out an action offers. -/
def Action.offer? : Action → Option Offer
  | .record tag impressions _ => some (.impressions tag impressions)
  | .track tag event => some (.event tag event)
  | _ => none

/-- Puts what is offered into its queue, as far as it fits. -/
def Records.offer (r : Records) : Offer → Records
  | .impressions tag batch => { r with impressions := (r.impressions.push tag batch).2 }
  | .event tag event => { r with events := (r.events.push tag [event]).2 }

/-- **An action changes the queues by what it offers and by nothing else.** -/
theorem Records.snd_perform (r : Records) (a : Action) :
    (r.perform a).2 = a.offer?.elim r r.offer := by
  cases a <;> rfl

/-! ## Whose tag is offered under -/

namespace Session

theorem tag_of_offer?_action {evaluator : Evaluator} {now : Int64} {i : Identity} {r : Request}
    {o : Offer} (h : (action evaluator now i r).offer? = some o) : o.tag = i.tag := by
  cases r with
  | treatment a withConfig =>
    rw [action, evaluateOne] at h
    cases hevaluate : evaluator.evaluate (a.query a.features) with
    | error failure =>
      rw [hevaluate] at h
      cases h
    | ok e =>
      rw [hevaluate] at h
      cases h
      rfl
  | treatments a withConfig =>
    rw [action, evaluateMany] at h
    cases hevaluate : evaluator.evaluateAll (a.features.map a.query) with
    | error failure =>
      rw [hevaluate] at h
      cases h
    | ok es =>
      rw [hevaluate] at h
      cases h
      rfl
  | track a =>
    cases h
    rfl
  | _ => cases h

/-- **Only registered connections offer, and only under their own tag.** -/
theorem tag_of_offer?_plan {evaluator : Evaluator} {now : Int64} {session : Session} {rpc : Rpc}
    {o : Offer} (h : (plan evaluator now session rpc).action.offer? = some o) :
    ∃ i version, session = .registered i version ∧ o.tag = i.tag := by
  cases session with
  | unregistered =>
    rcases plan_unregistered evaluator now rpc with
      ⟨-, hp⟩ | ⟨-, -, hp⟩ | ⟨-, fault, hp⟩ | ⟨i, -, hp⟩ <;>
    · rw [hp] at h
      cases h
  | registered i version =>
    -- only a request that is understood is acted on; all other cases offer nothing
    refine ⟨i, version, rfl, ?_⟩
    by_cases hversion : rpc.version = version
    · rw [plan, violation?_registered hversion] at h
      cases hop : OpCode.ofByte? rpc.opcode with
      | none =>
        rw [hop] at h
        cases h
      | some op =>
        rw [hop] at h
        replace h : (serve evaluator now i version op rpc).action.offer? = some o := h
        by_cases hregister : op = .register
        · rw [serve, if_pos hregister] at h
          cases h
        · rw [serve, if_neg hregister] at h
          cases hread : Request.ofRpc op rpc with
          | error fault =>
            rw [hread] at h
            cases h
          | ok r =>
            rw [hread] at h
            exact tag_of_offer?_action h
    · rw [plan_registered_of_version hversion] at h
      cases h

end Session

/-! ## Queues of other tags -/

namespace Records

/-- The two hold the same queues under a tag. -/
def AgreeOn (tag : ClientTag) (r r' : Records) : Prop :=
  r.impressions.queues.find? (·.1 = tag) = r'.impressions.queues.find? (·.1 = tag) ∧
    r.events.queues.find? (·.1 = tag) = r'.events.queues.find? (·.1 = tag)

/-- An offer leaves the queues of other tags as they are. -/
theorem agreeOn_offer {o : Offer} {tag : ClientTag} (hne : o.tag ≠ tag) (r : Records) :
    AgreeOn tag (r.offer o) r := by
  cases o with
  | impressions t batch => exact ⟨FanIn.find?_push_of_ne hne r.impressions batch, rfl⟩
  | event t e => exact ⟨rfl, FanIn.find?_push_of_ne hne r.events [e]⟩

/-- And so do any number of offers. -/
theorem agreeOn_foldl_offer {offers : List Offer} {tag : ClientTag}
    (hne : ∀ o ∈ offers, o.tag ≠ tag) (r : Records) : AgreeOn tag (offers.foldl offer r) r := by
  induction offers generalizing r with
  | nil => exact ⟨rfl, rfl⟩
  | cons o rest ih =>
    have hrest := ih (fun p hp => hne p (List.mem_cons_of_mem o hp)) (r.offer o)
    have hfirst := agreeOn_offer (hne o List.mem_cons_self) r
    exact ⟨hrest.1.trans hfirst.1, hrest.2.trans hfirst.2⟩

end Records

end FlagSidecar
