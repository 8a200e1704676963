import CilCodec.Patch
import CilCodec.Proofs.Encoder.Acceptance
import CilCodec.Proofs.Encoder.RoundTrip

/-!
# Patching decoded bodies

Replacing the operand of one instruction and encoding the list again changes the body only where
that operand stood. An operand of a fixed size leaves everything else in its place; a jump table
with more or fewer targets moves what is behind it and changes nothing there. An operand that does
not fit behind the opcode is refused. The main statement is about every body that can be decoded,
every index and every operand.
-/
namespace CilCodec

def Patch.rebuild (p : Patch) (is : List Instruction) : List UInt8 :=
  (Encoder.run ((p.apply is).map Emit.instruction) (.ofList [])).2.toList

/-- The same instruction further on, or further back where the distance is negative. -/
structure Instruction.Moved (distance : Int) (i j : Instruction) : Prop where
  offset_eq : (j.offset : Int) = i.offset + distance
  size_eq : j.size = i.size
  opcode_eq : j.opcode = i.opcode
  operand_eq : j.operand = i.operand
  resolution_eq : j.resolution = i.resolution

/-- What a patch does to the body `data` of the instructions `is`, of which `i` is the one that it
replaces the operand of. -/
structure Patch.Local (p : Patch) (data : List UInt8) (is : List Instruction) (i : Instruction) :
    Prop where
  /-- All instructions are encoded. -/
  accepted : (Encoder.run ((p.apply is).map Emit.instruction) (.ofList [])).1.map Emission.result =
    is.map fun _ => .ok ()
  /-- An operand of a fixed size changes only its own bytes, -/
  in_place : i.opcode.kind ≠ .inlineSwitch → (p.rebuild is).length = data.length ∧
    ∀ n, n < i.offset + i.opcode.size ∨ i.next ≤ n → (p.rebuild is)[n]? = data[n]?
  /-- and in the decoded list only itself and the targets that are worked out from it. -/
  decode_in_place : i.opcode.kind ≠ .inlineSwitch →
    decode (p.rebuild is) = .ok (is.modify p.index fun i =>
      { i with operand := p.operand, targets := p.operand.targets i.next })
  /-- Behind a jump table everything moves by four bytes for each target that was added. -/
  decode_table : i.opcode.kind = .inlineSwitch → ∃ old new, i.operand = .switch old ∧
    p.operand = .switch new ∧ ∃ j behind,
      decode (p.rebuild is) = .ok (is.take p.index ++ j :: behind) ∧
      j.opcode = i.opcode ∧ j.operand = p.operand ∧ j.offset = i.offset ∧
      List.Forall₂ (Instruction.Moved (4 * ((new.length : Int) - old.length)))
        (is.drop (p.index + 1)) behind

variable {data : List UInt8} {pieces more : List (List UInt8)} {is js : List Instruction}
  {i : Instruction} {k start : Nat}

/-- Lists that differ in a part of the same length agree in front of it and behind. -/
theorem getElem?_append_append_of_length_eq {α : Type} {a v w b : List α} {n : Nat}
    (h : v.length = w.length) (hn : n < a.length ∨ a.length + w.length ≤ n) :
    (a ++ (v ++ b))[n]? = (a ++ (w ++ b))[n]? := by
  rcases hn with hn | hn
  · rw [List.getElem?_append_left hn, List.getElem?_append_left hn]
  · have hle : a.length ≤ n := by omega
    rw [List.getElem?_append_right hle, List.getElem?_append_right hle,
      List.getElem?_append_right (by omega), List.getElem?_append_right (by omega), h]

theorem eq_take_append_of_getElem? (h : is[k]? = some i) :
    is = is.take k ++ i :: is.drop (k + 1) := by
  obtain ⟨hlt, hget⟩ := List.getElem?_eq_some_iff.1 h
  rw [← hget, List.getElem_cons_drop, List.take_append_drop]

theorem modify_of_getElem? {f : Instruction → Instruction} (h : is[k]? = some i) :
    is.modify k f = is.take k ++ f i :: is.drop (k + 1) := by
  obtain ⟨hlt, hget⟩ := List.getElem?_eq_some_iff.1 h
  rw [List.modify_eq_take_cons_drop hlt, hget]

theorem Instruction.plain_of_moved {distance : Int}
    (h : List.Forall₂ (Instruction.Moved distance) is js)
    (hplain : ∀ i ∈ is, i.resolution = .notAttempted) : ∀ j ∈ js, j.resolution = .notAttempted := by
  induction h with
  | nil => exact List.forall_mem_nil _
  | cons hmoved _ ih =>
    rcases List.forall_mem_cons.1 hplain with ⟨hi, his⟩
    exact List.forall_mem_cons.2 ⟨hmoved.resolution_eq.trans hi, ih his⟩

namespace Transcribes

theorem append (h : Transcribes start pieces is)
    (hmore : Transcribes (start + pieces.flatten.length) more js) :
    Transcribes start (pieces ++ more) (is ++ js) := by
  induction h with
  | nil start => exact hmore
  | @cons start w pieces i is hoffset hsize hspells htargets _ ih =>
    rw [List.flatten_cons, List.length_append, ← Nat.add_assoc] at hmore
    exact .cons hoffset hsize hspells htargets (ih hmore)

theorem exists_pieces (h : Transcribes start pieces (is ++ js)) :
    ∃ before behind, pieces = before ++ behind ∧ Transcribes start before is ∧
      Transcribes (start + before.flatten.length) behind js := by
  induction is generalizing start pieces with
  | nil => exact ⟨[], pieces, rfl, .nil start, h⟩
  | cons i is ih =>
    cases h with
    | @cons _ w pieces _ _ hoffset hsize hspells htargets htail =>
      rcases ih htail with ⟨before, behind, rfl, hbefore, hbehind⟩
      refine ⟨w :: before, behind, rfl, .cons hoffset hsize hspells htargets hbefore, ?_⟩
      rwa [List.flatten_cons, List.length_append, ← Nat.add_assoc]

theorem wellFormed (h : Transcribes start pieces is) : ∀ w ∈ pieces, Instruction.WellFormed w := by
  induction h with
  | nil start => exact List.forall_mem_nil _
  | cons _ _ hspells _ _ ih =>
    exact List.forall_mem_cons.2 ⟨Instruction.wellFormed_iff.2 ⟨_, _, hspells⟩, ih⟩

/-- The same pieces from another offset on are the same instructions there. -/
theorem exists_moved (h : Transcribes start pieces is) (start' : Nat) :
    ∃ js, Transcribes start' pieces js ∧
      List.Forall₂ (Instruction.Moved (start' - start)) is js := by
  induction h generalizing start' with
  | nil start => exact ⟨[], .nil start', .nil⟩
  | @cons start w pieces i is hoffset hsize hspells htargets _ ih =>
    rcases ih (start' + w.length) with ⟨js, hjs, hmoved⟩
    have hdistance : ((start' + w.length : Nat) : Int) - (start + w.length : Nat) =
        start' - start := by omega
    rw [hdistance] at hmoved
    refine ⟨{ i with offset := start', targets := i.operand.targets (start' + i.size) } :: js,
      .cons rfl hsize hspells rfl hjs, .cons ?_ hmoved⟩
    exact ⟨by dsimp only; omega, rfl, rfl, rfl, rfl⟩

end Transcribes

theorem Transcribes.decode_eq (h : Transcribes 0 pieces is)
    (hplain : ∀ i ∈ is, i.resolution = .notAttempted) : decode pieces.flatten = .ok is :=
  (Splits.of_wellFormed h.wellFormed).decode_eq_ok_iff.2 ⟨h, hplain⟩

/-- The instruction `i` at the index `k` is spelled by its opcode and the bytes `tail`, between the
pieces of the instructions in front of it and those of the instructions behind. -/
structure Between (is : List Instruction) (k : Nat) (i : Instruction)
    (before : List (List UInt8)) (tail : List UInt8) (behind : List (List UInt8)) : Prop where
  getElem? : is[k]? = some i
  mem_defined : i.opcode ∈ Opcode.defined
  spells : i.opcode.kind.Spells i.operand tail
  offset_eq : i.offset = before.flatten.length
  next_eq : i.next = i.offset + (i.opcode.bytes ++ tail).length
  front : Transcribes 0 before (is.take k)
  back : Transcribes i.next behind (is.drop (k + 1))

theorem Transcribes.exists_between (h : Transcribes 0 pieces is) (hk : is[k]? = some i) :
    ∃ before tail behind, pieces = before ++ (i.opcode.bytes ++ tail) :: behind ∧
      Between is k i before tail behind := by
  rw [eq_take_append_of_getElem? hk] at h
  rcases h.exists_pieces with ⟨before, more, rfl, hbefore, hmore⟩
  cases hmore with
  | @cons _ w behind _ _ hoffset hsize hspells htargets hbehind =>
    rw [Nat.zero_add] at hoffset hbehind
    have hnext : i.next = i.offset + w.length := by rw [Instruction.next, hsize]
    rw [← hoffset, ← hnext] at hbehind
    rcases hspells with ⟨ho, hx⟩
    rw [← Opcode.bytes_of_spells ho] at hnext ⊢
    exact ⟨before, _, behind, rfl, hk, Opcode.mem_defined_of_spells ho, hx, hoffset, hnext, hbefore,
      hbehind⟩

namespace Between

variable {x : Operand} {before behind : List (List UInt8)} {tail tail' : List UInt8}

/-- Where the new operand can be encoded the list can, and only the bytes of the operand are
replaced. -/
theorem encode_apply (h : Between is k i before tail behind)
    (hx : i.opcode.kind.Spells x tail') :
    (Encoder.run (((⟨k, x⟩ : Patch).apply is).map Emit.instruction) (.ofList [])).1.map
        Emission.result = is.map (fun _ => .ok ()) ∧
      (⟨k, x⟩ : Patch).rebuild is = (before ++ (i.opcode.bytes ++ tail') :: behind).flatten := by
  have hencode : i.opcode.encode x = .ok (i.opcode.bytes ++ tail') :=
    Opcode.encode_eq_ok_iff.2 ⟨tail', OperandKind.encode?_of_spells hx, rfl⟩
  have happly : (⟨k, x⟩ : Patch).apply is = is.take k ++ i.withOperand x :: is.drop (k + 1) :=
    modify_of_getElem? h.getElem?
  have hpieces : List.Forall₂ (fun request w => request.encode = .ok w)
      (((⟨k, x⟩ : Patch).apply is).map Emit.instruction)
      (before ++ (i.opcode.bytes ++ tail') :: behind) := by
    rw [happly, List.map_append, List.map_cons]
    exact List.rel_append h.front.encode_instruction (.cons hencode h.back.encode_instruction)
  rcases Encoder.run_of_encode hpieces (.ofList []) with ⟨hresults, hbytes⟩
  refine ⟨?_, hbytes⟩
  rw [hresults, List.map_const', List.map_const', List.length_map, Patch.length_apply]

/-- The new bytes are decoded to the instructions in front, the opcode with the new operand, and
whatever the pieces behind are there. -/
theorem decode_rebuild (h : Between is k i before tail behind)
    (hx : i.opcode.kind.Spells x tail') (hplain : ∀ i ∈ is, i.resolution = .notAttempted)
    (hjs : Transcribes (i.offset + (i.opcode.bytes ++ tail').length) behind js)
    (hplain' : ∀ j ∈ js, j.resolution = .notAttempted) :
    decode ((⟨k, x⟩ : Patch).rebuild is) = .ok (is.take k ++ Instruction.unresolved .standard
      i.offset i.opcode x (i.opcode.bytes ++ tail').length :: js) := by
  have hspells := Instruction.Spells.intro (Opcode.spells_of_mem_defined h.mem_defined) hx
  have hoffset : i.offset = 0 + before.flatten.length := by rw [h.offset_eq, Nat.zero_add]
  have hpieces := h.front.append (.cons
    (i := Instruction.unresolved .standard i.offset i.opcode x (i.opcode.bytes ++ tail').length)
    hoffset rfl hspells rfl (hoffset ▸ hjs))
  rw [(h.encode_apply hx).2]
  refine hpieces.decode_eq (List.forall_mem_append.2 ⟨?_, List.forall_mem_cons.2 ⟨rfl, hplain'⟩⟩)
  exact fun j hj => hplain j (List.mem_of_mem_take hj)

theorem rebuild_in_place (h : Between is k i before tail behind)
    (hx : i.opcode.kind.Spells x tail') (hlength : tail'.length = tail.length)
    (hdata : (before ++ (i.opcode.bytes ++ tail) :: behind).flatten = data) :
    ((⟨k, x⟩ : Patch).rebuild is).length = data.length ∧
      ∀ n, n < i.offset + i.opcode.size ∨ i.next ≤ n →
        ((⟨k, x⟩ : Patch).rebuild is)[n]? = data[n]? := by
  have hflatten (v : List UInt8) : (before ++ (i.opcode.bytes ++ v) :: behind).flatten =
      before.flatten ++ i.opcode.bytes ++ (v ++ behind.flatten) := by
    simp only [List.flatten_append, List.flatten_cons, List.append_assoc]
  have hfront : (before.flatten ++ i.opcode.bytes).length = i.offset + i.opcode.size := by
    rw [List.length_append, Opcode.length_bytes, h.offset_eq]
  have hnext : i.next = i.offset + i.opcode.size + tail.length := by
    rw [h.next_eq, List.length_append, Opcode.length_bytes, Nat.add_assoc]
  rw [(h.encode_apply hx).2, ← hdata, hflatten, hflatten]
  constructor
  · simp only [List.length_append, hlength]
  · intro n hn
    refine getElem?_append_append_of_length_eq hlength ?_
    rwa [hfront, ← hnext]

/-- Behind an operand of the same length nothing moves. -/
theorem decode_in_place (h : Between is k i before tail behind)
    (hx : i.opcode.kind.Spells x tail') (hlength : tail'.length = tail.length)
    (hplain : ∀ i ∈ is, i.resolution = .notAttempted) :
    decode ((⟨k, x⟩ : Patch).rebuild is) =
      .ok (is.modify k fun i => { i with operand := x, targets := x.targets i.next }) := by
  have hnext : i.offset + (i.opcode.bytes ++ tail').length = i.next := by
    rw [h.next_eq, List.length_append, List.length_append, hlength]
  have hsize : (i.opcode.bytes ++ tail').length = i.size := Nat.add_left_cancel hnext
  have hi : Instruction.unresolved .standard i.offset i.opcode x i.size =
      { i with operand := x, targets := x.targets i.next } := by
    rw [Instruction.unresolved, ← hplain i (List.mem_of_getElem? h.getElem?)]
    rfl
  rw [h.decode_rebuild hx hplain (hnext ▸ h.back) fun j hj => hplain j (List.mem_of_mem_drop hj),
    hsize, hi, modify_of_getElem? h.getElem?]

theorem decode_table (h : Between is k i before tail behind)
    (hx : i.opcode.kind.Spells x tail') (hkind : i.opcode.kind = .inlineSwitch)
    (hplain : ∀ i ∈ is, i.resolution = .notAttempted) :
    ∃ old new, i.operand = .switch old ∧ x = .switch new ∧ ∃ j js,
      decode ((⟨k, x⟩ : Patch).rebuild is) = .ok (is.take k ++ j :: js) ∧
      j.opcode = i.opcode ∧ j.operand = x ∧ j.offset = i.offset ∧
      List.Forall₂ (Instruction.Moved (4 * ((new.length : Int) - old.length)))
        (is.drop (k + 1)) js := by
  have hspells := h.spells
  have hx' := hx
  rw [hkind] at hspells hx'
  rcases OperandKind.exists_switch_of_spells hspells with ⟨old, hold, hlength⟩
  rcases OperandKind.exists_switch_of_spells hx' with ⟨new, rfl, hlength'⟩
  rcases h.back.exists_moved (i.offset + (i.opcode.bytes ++ tail').length) with ⟨js, hjs, hmoved⟩
  have hdistance : ((i.offset + (i.opcode.bytes ++ tail').length : Nat) : Int) - i.next =
      4 * ((new.length : Int) - old.length) := by
    rw [h.next_eq, List.length_append, List.length_append, hlength, hlength']
    omega
  rw [hdistance] at hmoved
  have hplain' := Instruction.plain_of_moved hmoved fun j hj => hplain j (List.mem_of_mem_drop hj)
  exact ⟨old, new, hold, rfl, _, js, h.decode_rebuild hx hplain hjs hplain', rfl, rfl, rfl, hmoved⟩

end Between

/-- Patching the operand of one instruction of a body that can be decoded is local if the operand
fits behind the opcode; otherwise every encoder refuses that instruction and stays as it was. -/
theorem decode_patch (x : Operand) (h : decode data = .ok is) (hk : is[k]? = some i) :
    (i.opcode.kind.admits x = true → (⟨k, x⟩ : Patch).Local data is i) ∧
      (i.opcode.kind.admits x = false → ∀ e, ∃ error,
        Encoder.emit (.instruction (i.withOperand x)) e = .error error e) := by
  constructor
  · intro hadmits
    rcases transcribes_of_decode h with ⟨pieces, rfl, his, hplain⟩
    rcases his.exists_between hk with ⟨before, tail, behind, rfl, hbetween⟩
    rcases OperandKind.exists_spells_of_admits hadmits with ⟨tail', hx⟩
    have hlength (hkind : i.opcode.kind ≠ .inlineSwitch) : tail'.length = tail.length := by
      apply Option.some.inj
      rw [← OperandKind.length_of_spells hx hkind,
        ← OperandKind.length_of_spells hbetween.spells hkind]
    constructor
    case accepted => exact (hbetween.encode_apply hx).1
    case in_place => exact fun hkind => hbetween.rebuild_in_place hx (hlength hkind) rfl
    case decode_in_place => exact fun hkind => hbetween.decode_in_place hx (hlength hkind) hplain
    case decode_table => exact fun hkind => hbetween.decode_table hx hkind hplain
  · intro hadmits e
    rcases Opcode.exists_unfit_iff.2 hadmits with ⟨misfit, hunfit⟩
    exact ⟨_, Encoder.emit_of_unfit (i := i.withOperand x) hunfit e⟩

/-- A jump table and a call: another method fits behind the call, and no operand does not. -/
theorem decode_patch_call :
    ∃ data is i, data = [0x45, 1, 0, 0, 0, 5, 0, 0, 0, 0x28, 1, 0, 0, 0x0A] ∧
      decode data = .ok is ∧ is[1]? = some i ∧
      (⟨1, .token ⟨0x06000002⟩⟩ : Patch).Local data is i ∧
      ∀ e, ∃ error, Encoder.emit (.instruction (i.withOperand .none)) e = .error error e := by
  have hdecode : decode [0x45, 1, 0, 0, 0, 5, 0, 0, 0, 0x28, 1, 0, 0, 0x0A] =
      .ok [⟨0, 9, .singleByte 0x45, .switch [5], .notAttempted, [14]⟩,
        ⟨9, 5, .singleByte 0x28, .token ⟨0x0A000001⟩, .notAttempted, []⟩] := by
    decide +kernel
  exact ⟨_, _, _, rfl, hdecode, rfl,
    (decode_patch (k := 1) (.token ⟨0x06000002⟩) hdecode rfl).1 (by decide +kernel),
    (decode_patch (k := 1) .none hdecode rfl).2 (by decide +kernel)⟩

end CilCodec
