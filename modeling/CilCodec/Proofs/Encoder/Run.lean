import CilCodec.Encoder
import CilCodec.Proofs.Instruction.Spelling

/-!
# Runs of an encoder

What a run of requests leaves in an encoder. An accepted request appends its bytes and a refused one
appends none, so a run appends the bytes of the accepted requests in their order. Which calls by
name are accepted is said by the table and the operand kinds alone. The main statements are about
one request, about runs without a refusal, and about the answer to one call.
-/
namespace CilCodec.Encoder

variable {request : Emit} {requests : List Emit} {w : List UInt8} {pieces : List (List UInt8)}

theorem toList_append (e : Encoder) (w : List UInt8) :
    toList ⟨e.bytes ++ w⟩ = e.toList ++ w := by
  simp [toList]

theorem position_append (e : Encoder) (w : List UInt8) :
    position ⟨e.bytes ++ w⟩ = e.position + w.length := by
  rw [← length_toList, toList_append, List.length_append, length_toList]

theorem attempt_of_ok (h : request.encode = .ok w) (e : Encoder) :
    attempt request e = (⟨.ok (), e.position + w.length⟩, ⟨e.bytes ++ w⟩) := by
  rw [attempt, emit_of_ok h, ← position_append]

theorem attempt_of_error {error : Error} (h : request.encode = .error error) (e : Encoder) :
    attempt request e = (⟨.error error, e.position⟩, e) := by
  rw [attempt, emit_of_error h]

/-- Requests that can be encoded are all accepted, and append their bytes one after the other. -/
theorem run_of_encode (h : List.Forall₂ (fun request w => request.encode = .ok w) requests pieces)
    (e : Encoder) :
    (run requests e).1.map Emission.result = requests.map (fun _ => .ok ()) ∧
      (run requests e).2.toList = e.toList ++ pieces.flatten := by
  induction h generalizing e with
  | nil => exact ⟨rfl, (List.append_nil _).symm⟩
  | @cons request w requests pieces hrequest _ ih =>
    rcases ih ⟨e.bytes ++ w⟩ with ⟨hresults, hbytes⟩
    rw [run_cons, attempt_of_ok hrequest]
    dsimp only
    rw [List.map_cons, List.map_cons, hresults, hbytes, toList_append, List.flatten_cons,
      List.append_assoc]
    exact ⟨rfl, rfl⟩

end Encoder

/-- A call that appends an instruction by its name; a missing operand is the empty one. -/
structure Call where
  mnemonic : String
  operand : Option Operand

namespace Call

def request (call : Call) : Emit := .named call.mnemonic call.operand

def Named (call : Call) : Prop := ∃ o ∈ Opcode.defined, o.mnemonic = call.mnemonic

def Fits (call : Call) : Prop :=
  ∃ o ∈ Opcode.defined, o.mnemonic = call.mnemonic ∧
    o.kind.admits (call.operand.getD .none) = true

instance (call : Call) : Decidable call.Fits :=
  inferInstanceAs (Decidable (∃ o ∈ Opcode.defined, o.mnemonic = call.mnemonic ∧
    o.kind.admits (call.operand.getD .none) = true))

structure Answered (call : Call) (result : Except Error Unit) : Prop where
  ok : result = .ok () ↔ call.Fits
  invalidMnemonic : result = .error (.invalidMnemonic call.mnemonic) ↔ ¬ call.Named
  malformed : (∃ fault, result = .error (.malformed fault)) ↔ call.Named ∧ ¬ call.Fits

variable {call : Call}

theorem Fits.named (h : call.Fits) : call.Named := by
  rcases h with ⟨o, ho, hname, -⟩
  exact ⟨o, ho, hname⟩

theorem encode_of_mem {o : Opcode} (ho : o ∈ Opcode.defined) (hname : o.mnemonic = call.mnemonic) :
    call.request.encode = o.encode (call.operand.getD .none) := by
  rw [request, Emit.encode, ← hname, Opcode.ofMnemonic_of_mem ho]

theorem encode_of_fits (h : call.Fits) :
    ∃ o w, o.mnemonic = call.mnemonic ∧
      Instruction.Spells o (call.operand.getD .none) w ∧ call.request.encode = .ok w := by
  rcases h with ⟨o, ho, hname, hadmits⟩
  rcases OperandKind.exists_spells_of_admits hadmits with ⟨w, hw⟩
  have hspells := Instruction.Spells.intro (Opcode.spells_of_mem_defined ho) hw
  refine ⟨o, _, hname, hspells, ?_⟩
  rw [encode_of_mem ho hname]
  exact (Instruction.spells_iff_encode.1 hspells).2

theorem encode_of_not_named (h : ¬ call.Named) :
    call.request.encode = .error (.invalidMnemonic call.mnemonic) := by
  have hne : ∀ o ∈ Opcode.defined, o.mnemonic ≠ call.mnemonic :=
    fun o ho hname => h ⟨o, ho, hname⟩
  rw [request, Emit.encode, Opcode.ofMnemonic_of_forall_ne hne]

theorem encode_of_not_fits (hnamed : call.Named) (h : ¬ call.Fits) :
    ∃ fault, call.request.encode = .error (.malformed fault) := by
  rcases hnamed with ⟨o, ho, hname⟩
  rw [encode_of_mem ho hname]
  unfold Opcode.encode
  split
  · next w hw =>
    have hadmits := OperandKind.admits_of_spells (OperandKind.spells_of_encode? hw)
    exact absurd ⟨o, ho, hname, hadmits⟩ h
  · exact ⟨_, rfl⟩

theorem attempt_of_not_fits (h : ¬ call.Fits) (e : Encoder) :
    ∃ error, Encoder.attempt call.request e = (⟨.error error, e.position⟩, e) := by
  by_cases hnamed : call.Named
  · rcases encode_of_not_fits hnamed h with ⟨fault, herror⟩
    exact ⟨_, Encoder.attempt_of_error herror e⟩
  · exact ⟨_, Encoder.attempt_of_error (encode_of_not_named hnamed) e⟩

theorem answered_attempt (call : Call) (e : Encoder) :
    call.Answered (Encoder.attempt call.request e).1.result := by
  by_cases hfits : call.Fits
  · rcases encode_of_fits hfits with ⟨o, w, -, -, hw⟩
    rw [Encoder.attempt_of_ok hw]
    refine ⟨⟨fun _ => hfits, fun _ => rfl⟩, ⟨?_, ?_⟩, ⟨?_, ?_⟩⟩
    · rintro ⟨⟩
    · exact fun h => absurd hfits.named h
    · rintro ⟨fault, ⟨⟩⟩
    · exact fun h => absurd hfits h.2
  · by_cases hnamed : call.Named
    · rcases encode_of_not_fits hnamed hfits with ⟨fault, herror⟩
      rw [Encoder.attempt_of_error herror]
      refine ⟨⟨?_, fun h => absurd h hfits⟩, ⟨?_, fun h => absurd hnamed h⟩,
        ⟨fun _ => ⟨hnamed, hfits⟩, fun _ => ⟨fault, rfl⟩⟩⟩
      · rintro ⟨⟩
      · rintro ⟨⟩
    · rw [Encoder.attempt_of_error (encode_of_not_named hnamed)]
      refine ⟨⟨?_, fun h => absurd h hfits⟩, ⟨fun _ => hnamed, fun _ => rfl⟩, ⟨?_, ?_⟩⟩
      · rintro ⟨⟩
      · rintro ⟨fault, ⟨⟩⟩
      · exact fun h => absurd h.1 hnamed

end CilCodec.Call
