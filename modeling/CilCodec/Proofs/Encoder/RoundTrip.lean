import CilCodec.Proofs.Decoder.Grammar
import CilCodec.Proofs.Encoder.Run

/-!
# Encoding and decoding undo each other

What an encoder was called for is what decoding its bytes lists, one instruction for each accepted
call, and what decoding lists is encoded to the bytes it came from, by opcode as well as by name.
The main statements are the two round trips.
-/
namespace CilCodec

/-- The outcomes of the calls, and the instructions of the accepted ones, behind the offset `start`.
A refused call has no instruction and leaves the offset where it was. -/
inductive Assembles : (start : Nat) → List Call → List Emission → List Instruction → Prop where
  | nil (start : Nat) : Assembles start [] [] []
  | accepted {call : Call} {calls : List Call} {emissions : List Emission} {i : Instruction}
      {is : List Instruction} : i.opcode ∈ Opcode.defined → i.mnemonic = call.mnemonic →
      i.operand = call.operand.getD .none → Assembles i.next calls emissions is →
      Assembles i.offset (call :: calls) (⟨.ok (), i.next⟩ :: emissions) (i :: is)
  | refused {start : Nat} {call : Call} {calls : List Call} {emissions : List Emission}
      {is : List Instruction} {e : Error} : Assembles start calls emissions is →
      Assembles start (call :: calls) (⟨.error e, start⟩ :: emissions) is

def assemble (calls : List Call) : List Emission × Encoder :=
  Encoder.run (calls.map Call.request) (.ofList [])

def Instruction.call (i : Instruction) : Call where
  mnemonic := i.mnemonic
  operand := if i.operand = .none then none else some i.operand

variable {σ : Type} {data w : List UInt8} {pieces : List (List UInt8)} {is : List Instruction}
  {start : Nat}

namespace Encoder

theorem answered_run (calls : List Call) (e : Encoder) :
    List.Forall₂ (fun call emission => call.Answered emission.result) calls
      (run (calls.map Call.request) e).1 := by
  induction calls generalizing e with
  | nil => exact .nil
  | cons call calls ih =>
    rw [List.map_cons, run_cons]
    exact .cons (call.answered_attempt e) (ih _)

/-- Leaving out the refused calls leaves out nothing of the bytes. -/
theorem run_filter_fits (calls : List Call) (e : Encoder) :
    (run ((calls.filter (fun call => call.Fits)).map Call.request) e).2 =
      (run (calls.map Call.request) e).2 := by
  induction calls generalizing e with
  | nil => rfl
  | cons call calls ih =>
    by_cases hfits : call.Fits
    · rw [List.filter_cons_of_pos (by simpa using hfits), List.map_cons, List.map_cons, run_cons,
        run_cons]
      exact ih _
    · rcases Call.attempt_of_not_fits hfits e with ⟨error, hrefused⟩
      rw [List.filter_cons_of_neg (by simpa using hfits), List.map_cons, run_cons, hrefused]
      exact ih e

/-- An accepted call stands in front of whatever the calls behind it list. -/
theorem assembles_of_spells {call : Call} {calls : List Call} {emissions : List Emission}
    {o : Opcode} (hname : o.mnemonic = call.mnemonic)
    (hspells : Instruction.Spells o (call.operand.getD .none) w)
    (h : ∀ is, Transcribes (start + w.length) pieces is →
      Assembles (start + w.length) calls emissions is)
    (his : Transcribes start (w :: pieces) is) :
    Assembles start (call :: calls) (⟨.ok (), start + w.length⟩ :: emissions) is := by
  cases his with
  | @cons _ _ _ i is hoffset hsize hspells' _ htail =>
    rcases hspells'.unique hspells (rfl : w ++ [] = w ++ []) with ⟨hopcode, hoperand, -⟩
    have hnext : i.next = start + w.length := by rw [Instruction.next, hoffset, hsize]
    have hassembles := h is htail
    rw [← hopcode] at hname
    rw [← hnext] at hassembles ⊢
    rw [← hoffset]
    exact .accepted (Instruction.spells_iff_encode.1 hspells').1 hname hoperand hassembles

/-- A run appends the pieces of its accepted calls, and whatever transcribes those pieces lists
those calls. -/
theorem exists_pieces_run (calls : List Call) (e : Encoder) :
    ∃ pieces, (∀ w ∈ pieces, Instruction.WellFormed w) ∧
      (run (calls.map Call.request) e).2.toList = e.toList ++ pieces.flatten ∧
      ∀ is, Transcribes e.position pieces is →
        Assembles e.position calls (run (calls.map Call.request) e).1 is := by
  induction calls generalizing e with
  | nil =>
    refine ⟨[], List.forall_mem_nil _, (List.append_nil _).symm, ?_⟩
    intro is his
    cases his
    exact .nil _
  | cons call calls ih =>
    rw [List.map_cons, run_cons]
    by_cases hfits : call.Fits
    · rcases Call.encode_of_fits hfits with ⟨o, w, hname, hspells, hencode⟩
      rcases ih ⟨e.bytes ++ w⟩ with ⟨pieces, hpieces, hbytes, hassembles⟩
      rw [attempt_of_ok hencode]
      rw [position_append] at hassembles
      have hw := Instruction.wellFormed_iff.2 ⟨o, _, hspells⟩
      refine ⟨w :: pieces, List.forall_mem_cons.2 ⟨hw, hpieces⟩, ?_,
        fun is his => assembles_of_spells hname hspells hassembles his⟩
      rw [hbytes, toList_append, List.flatten_cons, List.append_assoc]
    · rcases Call.attempt_of_not_fits hfits e with ⟨error, hrefused⟩
      rcases ih e with ⟨pieces, hpieces, hbytes, hassembles⟩
      rw [hrefused]
      exact ⟨pieces, hpieces, hbytes, fun is his => .refused (hassembles is his)⟩

end Encoder

/-- Decoding gives back what was called for. Every call is answered by its name and its operand
alone; the accepted ones, and no others, are decoded again in their order, each where the encoder
stood when it was called; and the refused ones might as well not have been made. -/
theorem decode_assemble (calls : List Call) :
    List.Forall₂ (fun call emission => call.Answered emission.result) calls (assemble calls).1 ∧
      (∃ is, decode (assemble calls).2.toList = .ok is ∧
        Assembles 0 calls (assemble calls).1 is) ∧
      (assemble (calls.filter (fun call => call.Fits))).2 = (assemble calls).2 := by
  refine ⟨Encoder.answered_run calls _, ?_, Encoder.run_filter_fits calls _⟩
  rcases Encoder.exists_pieces_run calls (.ofList []) with ⟨pieces, hpieces, hbytes, hassembles⟩
  rw [Encoder.toList_ofList, List.nil_append] at hbytes
  rcases decodeWith_of_splits none () (Splits.of_wellFormed hpieces) with ⟨is, hdecode, his, -⟩
  rw [← hbytes] at hdecode
  exact ⟨is, hdecode, hassembles is his⟩

namespace Transcribes

theorem encode_instruction (h : Transcribes start pieces is) :
    List.Forall₂ (fun request w => request.encode = .ok w) (is.map Emit.instruction) pieces := by
  induction h with
  | nil start => exact .nil
  | cons _ _ hspells _ _ ih => exact .cons (Instruction.spells_iff_encode.1 hspells).2 ih

theorem encode_call (h : Transcribes start pieces is) :
    List.Forall₂ (fun request w => request.encode = .ok w)
      ((is.map Instruction.call).map Call.request) pieces := by
  induction h with
  | nil start => exact .nil
  | @cons start w pieces i is _ _ hspells _ _ ih =>
    rcases Instruction.spells_iff_encode.1 hspells with ⟨hmem, hencode⟩
    have hoperand : i.call.operand.getD .none = i.operand := by
      rw [Instruction.call]
      by_cases hnone : i.operand = .none
      · rw [if_pos hnone, hnone]
        rfl
      · rw [if_neg hnone]
        rfl
    have hcall : i.call.request.encode = .ok w := by
      rw [Call.encode_of_mem hmem rfl, hoperand, hencode]
    exact .cons hcall ih

end Transcribes

/-- Encoding gives back the bytes that were decoded, instruction by instruction and call by call,
and accepts every one of them. -/
theorem encode_decodeWith {scope : Option (Scope σ)} {s : σ}
    (h : (decodeWith data scope s).result = .ok is) :
    ((Encoder.run (is.map Emit.instruction) (.ofList [])).1.map Emission.result =
        is.map (fun _ => .ok ()) ∧
      (Encoder.run (is.map Emit.instruction) (.ofList [])).2.toList = data) ∧
    (assemble (is.map Instruction.call)).1.map Emission.result = is.map (fun _ => .ok ()) ∧
      (assemble (is.map Instruction.call)).2.toList = data := by
  rcases transcribes_of_decodeWith h with ⟨pieces, rfl, his⟩
  rcases Encoder.run_of_encode his.encode_instruction (.ofList []) with ⟨hresults, hbytes⟩
  rcases Encoder.run_of_encode his.encode_call (.ofList []) with ⟨hresults', hbytes'⟩
  rw [List.map_map] at hresults
  rw [← assemble, List.map_map, List.map_map] at hresults'
  exact ⟨⟨hresults, hbytes⟩, hresults', hbytes'⟩

/-- A body with a signalling NaN, a negative zero, the lowest short delta, a jump table and an
escaped opcode. -/
theorem encode_decodeWith_mixed :
    ∃ data is,
      data = [0x22, 0x01, 0, 0x80, 0x7F, 0x23, 0, 0, 0, 0, 0, 0, 0, 0x80, 0x2B, 0x80,
        0x45, 2, 0, 0, 0, 0, 0, 0, 0, 0xFF, 0xFF, 0xFF, 0xFF, 0xFE, 0x01] ∧
      is = [⟨0, 5, .singleByte 0x22, .immediate (.float32 0x7F800001), .notAttempted, []⟩,
        ⟨5, 9, .singleByte 0x23, .immediate (.float64 0x8000000000000000), .notAttempted, []⟩,
        ⟨14, 2, .singleByte 0x2B, .branch (-128), .notAttempted, []⟩,
        ⟨16, 13, .singleByte 0x45, .switch [0, -1], .notAttempted, [29, 28]⟩,
        ⟨29, 2, .escaped 0x01, .none, .notAttempted, []⟩] ∧
      (decodeWith data none ()).result = .ok is ∧
      (Encoder.run (is.map Emit.instruction) (.ofList [])).2.toList = data ∧
      (assemble (is.map Instruction.call)).2.toList = data := by
  refine ⟨_, _, rfl, rfl, ?_⟩
  suffices hdecode : (decodeWith _ none ()).result = .ok _ from
    ⟨hdecode, (encode_decodeWith hdecode).1.2, (encode_decodeWith hdecode).2.2⟩
  decide +kernel

end CilCodec
