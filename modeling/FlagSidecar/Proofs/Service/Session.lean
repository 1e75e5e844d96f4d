import FlagSidecar.Service.Session

/-!
# FlagSidecar.Proofs.Service.Session: everything that one request can lead to

What a request leads to depends on a few checks whose order decides between an answer, an answer and
the end, and a silent end. The lemmas below take `Session.plan` apart once, by session: the properties
of whole runs are read off them.

Main statements: `Session.plan_unregistered` and `Session.session_plan_registered`.
-/

namespace FlagSidecar

/-- The request declares an identity: it is a registration in the protocol version spoken here, and its
arguments are in order. -/
def Rpc.Declares (rpc : Rpc) (i : Identity) : Prop :=
  rpc.opcode = OpCode.register.byte ∧ rpc.version = protocolVersion ∧
    Layout.register.ofRpc rpc = .ok i

/-- The request is a registration in the protocol version spoken here whose arguments are rejected. -/
def Rpc.RejectedRegistration (rpc : Rpc) : Prop :=
  rpc.opcode = OpCode.register.byte ∧ rpc.version = protocolVersion ∧
    ∃ fault, Layout.register.ofRpc rpc = .error fault

/-- Bit 0 of the flags asks for what is recorded. -/
theorem RegisterFlags.returnImpressionData_eq (f : RegisterFlags) :
    f.returnImpressionData = f.bits.toNat.testBit 0 := by
  have hone : (f.bits &&& 1).toNat = f.bits.toNat % 2 := by
    rw [UInt64.toNat_and]
    exact Nat.and_one_is_mod _
  unfold returnImpressionData
  rw [Nat.testBit_zero, bne, Bool.eq_iff_iff, Bool.not_eq_true', beq_eq_false_iff_ne, decide_eq_true_iff,
    ne_eq, ← UInt64.toNat_inj, hone]
  show ¬ _ = 0 ↔ _
  omega

theorem Request.eq_register_of_opCode {r : Request} (h : r.opCode = .register) :
    ∃ i, r = .register i := by
  cases r with
  | register i => exact ⟨i, rfl⟩
  | treatment a withConfig => cases withConfig <;> cases h
  | treatments a withConfig => cases withConfig <;> cases h
  | _ => cases h

namespace Session

variable {evaluator : Evaluator} {now : Int64} {rpc : Rpc} {i : Identity} {version : UInt8}

/-! ## Before registration -/

theorem plan_unregistered_of_opcode (hop : rpc.opcode ≠ OpCode.register.byte) :
    plan evaluator now .unregistered rpc = ⟨.unregistered, [], .refuse⟩ := by
  have hviolation : violation? .unregistered rpc = some .refuse := by rw [violation?, if_pos hop]
  rw [plan, hviolation]

theorem plan_unregistered_of_version (hop : rpc.opcode = OpCode.register.byte)
    (hversion : rpc.version ≠ protocolVersion) :
    plan evaluator now .unregistered rpc = ⟨.unregistered, [], .close⟩ := by
  have hviolation : violation? .unregistered rpc = some .close := by
    rw [violation?, if_neg (not_not_intro hop), if_pos hversion]
  rw [plan, hviolation]

/-- A registration that breaks no rule is left to its arguments. -/
theorem plan_unregistered_register (hop : rpc.opcode = OpCode.register.byte)
    (hversion : rpc.version = protocolVersion) :
    plan evaluator now .unregistered rpc = register rpc := by
  have hviolation : violation? .unregistered rpc = none := by
    rw [violation?, if_neg (not_not_intro hop), if_neg (not_not_intro hversion)]
  rw [plan, hviolation, hop, OpCode.ofByte?_byte]

theorem plan_of_rejected (evaluator : Evaluator) (now : Int64) (h : rpc.RejectedRegistration) :
    ∃ fault, plan evaluator now .unregistered rpc = ⟨.unregistered, [], .fail (.args fault)⟩ := by
  obtain ⟨hop, hversion, fault, hfault⟩ := h
  refine ⟨fault, ?_⟩
  rw [plan_unregistered_register hop hversion, register, hfault]

theorem plan_of_declares (evaluator : Evaluator) (now : Int64) (h : rpc.Declares i) :
    plan evaluator now .unregistered rpc =
      ⟨.registered i protocolVersion, [], .acknowledge⟩ := by
  obtain ⟨hop, hversion, hidentity⟩ := h
  rw [plan_unregistered_register hop hversion, register, hidentity, hversion]

/-- **Everything that a request can lead to before registration**, in the order of the checks. -/
theorem plan_unregistered (evaluator : Evaluator) (now : Int64) (rpc : Rpc) :
    (rpc.opcode ≠ OpCode.register.byte ∧
      plan evaluator now .unregistered rpc = ⟨.unregistered, [], .refuse⟩) ∨
    (rpc.opcode = OpCode.register.byte ∧ rpc.version ≠ protocolVersion ∧
      plan evaluator now .unregistered rpc = ⟨.unregistered, [], .close⟩) ∨
    (rpc.RejectedRegistration ∧
      ∃ fault, plan evaluator now .unregistered rpc = ⟨.unregistered, [], .fail (.args fault)⟩) ∨
    ∃ i, rpc.Declares i ∧
      plan evaluator now .unregistered rpc = ⟨.registered i protocolVersion, [], .acknowledge⟩ := by
  by_cases hop : rpc.opcode = OpCode.register.byte
  · by_cases hversion : rpc.version = protocolVersion
    · cases hread : Layout.register.ofRpc rpc with
      | error fault =>
        have h : rpc.RejectedRegistration := ⟨hop, hversion, fault, hread⟩
        exact .inr (.inr (.inl ⟨h, plan_of_rejected evaluator now h⟩))
      | ok i =>
        have h : rpc.Declares i := ⟨hop, hversion, hread⟩
        exact .inr (.inr (.inr ⟨i, h, plan_of_declares evaluator now h⟩))
    · exact .inr (.inl ⟨hop, hversion, plan_unregistered_of_version hop hversion⟩)
  · exact .inl ⟨hop, plan_unregistered_of_opcode hop⟩

/-! ## After registration -/

/-- A request of another version ends the connection, whatever else it says. -/
theorem plan_registered_of_version (hversion : rpc.version ≠ version) :
    plan evaluator now (.registered i version) rpc = ⟨.registered i version, [], .close⟩ := by
  have hviolation : violation? (.registered i version) rpc = some .close := by
    rw [violation?, if_pos hversion]
  rw [plan, hviolation]

theorem violation?_registered (hversion : rpc.version = version) :
    violation? (.registered i version) rpc = none := by
  rw [violation?, if_neg (not_not_intro hversion)]

/-- A second registration fails, whatever its arguments. -/
theorem plan_registered_register (hversion : rpc.version = version)
    (hop : rpc.opcode = OpCode.register.byte) :
    plan evaluator now (.registered i version) rpc =
      ⟨.registered i version, [], .fail .alreadyRegistered⟩ := by
  rw [plan, violation?_registered hversion, hop, OpCode.ofByte?_byte]
  rfl

/-- A request whose operation is known and whose arguments are in order is acted on. -/
theorem plan_registered_request {r : Request} (hversion : rpc.version = version)
    (hop : OpCode.ofByte? rpc.opcode = some r.opCode)
    (hread : Request.ofRpc r.opCode rpc = .ok r) :
    plan evaluator now (.registered i version) rpc =
      ⟨.registered i version, asked evaluator r, action evaluator now i r⟩ := by
  rw [plan, violation?_registered hversion, hop]
  show serve evaluator now i version r.opCode rpc = _
  by_cases hregister : r.opCode = .register
  · obtain ⟨j, rfl⟩ := Request.eq_register_of_opCode hregister
    rfl
  · rw [serve, if_neg hregister, hread]

/-- **No request changes a registration.** -/
theorem session_plan_registered (evaluator : Evaluator) (now : Int64) (i : Identity)
    (version : UInt8) (rpc : Rpc) :
    (plan evaluator now (.registered i version) rpc).session = .registered i version := by
  by_cases hversion : rpc.version = version
  · rw [plan, violation?_registered hversion]
    cases OpCode.ofByte? rpc.opcode with
    | none => rfl
    | some op =>
      show (serve evaluator now i version op rpc).session = _
      by_cases hop : op = .register
      · rw [serve, if_pos hop]
      · rw [serve, if_neg hop]
        cases Request.ofRpc op rpc <;> rfl
  · rw [plan_registered_of_version hversion]

end Session

end FlagSidecar
