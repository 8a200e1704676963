import CilCodec.Proofs.Decoder.Grammar

/-!
# Bodies that grow

More bytes behind a body take back nothing of what was decoded. Bytes that no opcode begins with
stay unknown. A body that ends inside an instruction says how many bytes it would take: with fewer it
is still cut short there, and by as many fewer, and with as many the instruction can be read. The
main statement is about every body and every continuation.
-/
namespace CilCodec

open Instruction

variable {data a rest rest' : List UInt8} {pieces more : List (List UInt8)} {is js : List Instruction}
  {start needed available : Nat} {failure : Option Error}

/-- The body `a` ends inside the instruction at `offset`, behind the instructions `is`. -/
structure CutShort (a : List UInt8) (is : List Instruction) (offset needed available : Nat) :
    Prop where
  available_lt : available < needed
  /-- The bytes that are there are one or two of the opcode, and behind them the available ones. -/
  opcode_read : ∃ present, (present = 1 ∨ present = 2) ∧
    (Reader.final Opcode.read ((Cursor.start a).skip offset)).position = offset + present ∧
    offset + present + available = a.length
  stays_short : ∀ b : List UInt8, b.length < needed - available →
    items (a ++ b) = yielded is (some (.truncated offset needed (available + b.length)))
  /-- Where the opcode tells the size, with the count of its table if it has one, the missing bytes
  complete the operand. -/
  completed : ∀ o c, Opcode.read ((Cursor.start a).skip offset) = .ok o c →
    (o.kind = .inlineSwitch → 4 ≤ available) → ∀ b : List UInt8, needed - available ≤ b.length →
      ∃ i js failure, items (a ++ b) = yielded (is ++ i :: js) failure ∧
        i.offset = offset ∧ i.opcode = o ∧ i.size = o.size + needed

namespace OperandKind

variable {kind : OperandKind} {w : List UInt8}

/-- Too few bytes more still lack as many in all. -/
theorem Lacks.append (h : kind.Lacks w needed) {b : List UInt8}
    (hb : b.length < needed - w.length) : kind.Lacks (w ++ b) needed := by
  have hlength : (w ++ b).length < needed := by
    rw [List.length_append]
    omega
  cases h with
  | fixed hsize _ => exact .fixed hsize hlength
  | count _ => exact .count hlength
  | table count entries hcount _ =>
    rw [List.append_assoc] at hlength ⊢
    rw [List.length_append, hcount] at hlength
    exact .table count (entries ++ b) hcount (by omega)

theorem Lacks.frames (h : kind.Lacks w needed) (hreadable : kind = .inlineSwitch → 4 ≤ w.length)
    {b : List UInt8} (hb : w.length + b.length = needed) : kind.Frames (w ++ b) := by
  rw [← List.length_append] at hb
  cases h with
  | fixed hsize _ =>
    rw [← hb] at hsize
    exact .fixed hsize
  | count hlt => exact absurd (hreadable rfl) (Nat.not_le.2 hlt)
  | table count entries hcount _ =>
    rw [List.append_assoc] at hb ⊢
    rw [List.length_append, hcount] at hb
    exact .table count (entries ++ b) hcount (by omega)

end OperandKind

namespace Instruction.Rejects

variable {bytes : List UInt8} {limit : Option Nat} {offset : Nat} {lead value : UInt8}

/-- No bytes behind an unknown opcode make it known. -/
theorem append_of_unknownOpcode (h : Rejects limit start bytes (.unknownOpcode offset lead value))
    (b : List UInt8) : Rejects limit start (bytes ++ b) (.unknownOpcode offset lead value) := by
  cases h with
  | unknown _ after hvalue hdef => exact .unknown value (after ++ b) hvalue hdef
  | unknownEscaped _ after hdef => exact .unknownEscaped value (after ++ b) hdef

theorem available_lt (h : Rejects limit start bytes (.truncated offset needed available)) :
    available < needed := by
  cases h with
  | empty | escape => exact Nat.one_pos
  | operand _ _ hlacks => exact hlacks.length_lt

theorem append_of_truncated (h : Rejects none start bytes (.truncated offset needed available))
    {b : List UInt8} (hb : b.length < needed - available) :
    Rejects none start (bytes ++ b) (.truncated offset needed (available + b.length)) := by
  cases h with
  | empty | escape =>
    obtain rfl : b = [] := List.length_eq_zero_iff.1 (by omega)
    constructor
  | @operand o head tail _ ho _ hlacks =>
    rw [List.append_assoc, ← List.length_append]
    exact .operand ho not_exceeds_none (hlacks.append hb)

/-- What is there of bytes that end too early is one or two bytes of an opcode, and then what is
available of the bytes that were wanted. -/
theorem final_readOpcode_of_truncated {c : Cursor data} (hrest : c.rest ≠ [])
    (h : Rejects limit start c.rest (.truncated offset needed available)) :
    ∃ present, (present = 1 ∨ present = 2) ∧ Reader.final Opcode.read c = c.skip present ∧
      present + available = c.remaining := by
  rw [Cursor.remaining]
  generalize hbytes : c.rest = bytes at h hrest
  cases h with
  | empty => exact absurd rfl hrest
  | escape =>
    exact ⟨1, .inl rfl, Reader.final_of_error (Opcode.read_of_escape_nil hbytes), rfl⟩
  | @operand o head tail _ ho _ _ =>
    refine ⟨head.length, ?_, Reader.final_of_ok (Opcode.read_of_spells ho hbytes), ?_⟩
    · cases ho with
      | singleByte => exact .inl rfl
      | escaped => exact .inr rfl
    · rw [List.length_append]

/-- Where the opcode was read and tells the size, the missing bytes complete the instruction. -/
theorem spells_of_truncated {o : Opcode} {c d : Cursor data}
    (h : Rejects limit start c.rest (.truncated offset needed available))
    (hread : Opcode.read c = .ok o d) (hreadable : o.kind = .inlineSwitch → 4 ≤ available)
    {b : List UInt8} (hb : needed - available ≤ b.length) :
    ∃ x w after, Spells o x w ∧ c.rest ++ b = w ++ after ∧ w.length = o.size + needed := by
  generalize hbytes : c.rest = bytes at h ⊢
  cases h with
  | empty =>
    rw [Opcode.read_of_nil hbytes] at hread
    cases hread
  | escape =>
    rw [Opcode.read_of_escape_nil hbytes] at hread
    cases hread
  | @operand p head tail _ ho _ hlacks =>
    rw [Opcode.read_of_spells ho hbytes] at hread
    cases hread
    have hlt := hlacks.length_lt
    have hadded : tail.length + (b.take (needed - tail.length)).length = needed := by
      rw [List.length_take]
      omega
    rcases OperandKind.exists_spells_of_frames (hlacks.frames hreadable hadded) with ⟨x, hx⟩
    refine ⟨x, _, b.drop (needed - tail.length), .intro ho hx, ?_, ?_⟩
    · rw [List.append_assoc, List.append_assoc, List.append_assoc, List.take_append_drop]
    · rw [List.length_append, List.length_append, hadded, ← Opcode.bytes_of_spells ho,
        Opcode.length_bytes]

end Instruction.Rejects

namespace Splits

theorem append {b : List UInt8} (h : Splits data pieces rest)
    (hmore : Splits (rest ++ b) more rest') : Splits (data ++ b) (pieces ++ more) rest' where
  flatten_append := by
    rw [List.flatten_append, List.append_assoc, hmore.flatten_append, ← List.append_assoc,
      h.flatten_append]
  wellFormed := List.forall_mem_append.2 ⟨h.wellFormed, hmore.wellFormed⟩
  stuck := hmore.stuck

theorem of_rejects {bytes : List UInt8} {e : Error} (he : Rejects none start bytes e) :
    Splits bytes [] bytes :=
  ⟨rfl, List.forall_mem_nil _, fun _ _ hsplit => he.not_wellFormed hsplit⟩

end Splits

theorem Transcribes.of_append (h : Transcribes start (pieces ++ more) is) :
    ∃ front behind, is = front ++ behind ∧ Transcribes start pieces front ∧
      Transcribes (start + pieces.flatten.length) more behind := by
  induction pieces generalizing start is with
  | nil => exact ⟨[], is, rfl, .nil start, h⟩
  | cons w pieces ih =>
    cases h with
    | @cons _ _ _ i is hoffset hsize hspells htargets htail =>
      rcases ih htail with ⟨front, behind, rfl, hfront, hbehind⟩
      refine ⟨i :: front, behind, rfl, .cons hoffset hsize hspells htargets hfront, ?_⟩
      rwa [List.flatten_cons, List.length_append, ← Nat.add_assoc]

theorem Ends.of_rejects {bytes : List UInt8} {e : Error} (h : Ends start bytes failure)
    (hne : bytes ≠ []) (he : Rejects none start bytes e) : failure = some e := by
  cases h with
  | finished => exact absurd rfl hne
  | failed _ hf => rw [he.unique hf]

/-- The instructions of a body stay when it grows; those that are added are spelled by the pieces
that its rest and the added bytes split into. -/
theorem items_append (h : Splits a pieces rest) (his : Transcribes 0 pieces is)
    (hplain : ∀ i ∈ is, i.resolution = .notAttempted) {b : List UInt8}
    (hmore : Splits (rest ++ b) more rest') :
    ∃ js failure, items (a ++ b) = yielded (is ++ js) failure ∧
      Transcribes pieces.flatten.length more js ∧
      Ends (pieces.flatten.length + more.flatten.length) rest' failure := by
  rcases items_of_splits (h.append hmore) with ⟨ks, failure, hitems, hks, hends, hplain'⟩
  rcases hks.of_append with ⟨front, js, rfl, hfront, hjs⟩
  obtain rfl := hfront.unique his (fun i hi => hplain' i (List.mem_append_left _ hi)) hplain
  rw [Nat.zero_add] at hjs
  rw [List.flatten_append, List.length_append] at hends
  exact ⟨js, failure, hitems, hjs, hends⟩

theorem items_append_of_rejects (h : Splits a pieces rest) (his : Transcribes 0 pieces is)
    (hplain : ∀ i ∈ is, i.resolution = .notAttempted) (hrest : rest ≠ []) {b : List UInt8}
    {e : Error} (he : Rejects none pieces.flatten.length (rest ++ b) e) :
    items (a ++ b) = yielded is (some e) := by
  rcases items_append h his hplain (.of_rejects he) with ⟨js, failure, hitems, hjs, hends⟩
  cases hjs
  rw [hends.of_rejects (fun hnil => hrest (List.append_eq_nil_iff.1 hnil).1) he,
    List.append_nil] at hitems
  exact hitems

theorem cutShort_of_rejects {offset : Nat} (h : Splits a pieces rest)
    (his : Transcribes 0 pieces is) (hplain : ∀ i ∈ is, i.resolution = .notAttempted)
    (hne : rest ≠ [])
    (he : Rejects none pieces.flatten.length rest (.truncated offset needed available)) :
    CutShort a is offset needed available := by
  have hrest : ((Cursor.start a).skip pieces.flatten.length).rest = rest :=
    Cursor.rest_skip_of_rest h.flatten_append.symm
  obtain rfl : offset = pieces.flatten.length := Option.some.inj he.offset?_eq
  have hfront := he
  rw [← hrest] at hfront hne
  constructor
  case available_lt => exact he.available_lt
  case opcode_read =>
    rcases hfront.final_readOpcode_of_truncated hne with ⟨present, hpresent, hfinal, hlength⟩
    refine ⟨present, hpresent, ?_, ?_⟩
    · rw [hfinal]
      simp
    · rw [Cursor.remaining, hrest] at hlength
      rw [h.length_eq, Nat.add_assoc, hlength]
  case stays_short =>
    intro b hb
    exact items_append_of_rejects h his hplain (hrest ▸ hne) (he.append_of_truncated hb)
  case completed =>
    intro o c hread hreadable b hb
    rcases hfront.spells_of_truncated hread hreadable hb with ⟨x, w, after, hw, hsplit, hlength⟩
    rw [hrest] at hsplit
    rcases exists_splits after with ⟨more, rest', hafter⟩
    have hmore : Splits (rest ++ b) (w :: more) rest' := by
      rw [hsplit]
      exact hafter.cons (wellFormed_iff.2 ⟨o, x, hw⟩)
    rcases items_append h his hplain hmore with ⟨ks, failure, hitems, hks, -⟩
    cases hks with
    | @cons _ _ _ i js hoffset hsize hspells _ _ =>
      rcases hspells.unique hw (rfl : w ++ [] = w ++ []) with ⟨hopcode, -⟩
      exact ⟨i, js, failure, hitems, hoffset, hopcode, hsize.trans hlength⟩

/-- Every body keeps its instructions when it grows, and an opcode that is unknown stays the cause of
failure. A body that ends inside an instruction says exactly what it lacks. -/
theorem items_of_growth (a : List UInt8) :
    ∃ is failure, items a = yielded is failure ∧
      (∀ b, ∃ js failure', items (a ++ b) = yielded (is ++ js) failure') ∧
      (∀ offset lead value, failure = some (.unknownOpcode offset lead value) →
        ∀ b, items (a ++ b) = yielded is failure) ∧
      ∀ offset needed available, failure = some (.truncated offset needed available) →
        CutShort a is offset needed available := by
  rcases exists_splits a with ⟨pieces, rest, h⟩
  rcases items_of_splits h with ⟨is, failure, hitems, his, hends, hplain⟩
  refine ⟨is, failure, hitems, fun b => ?_, ?_, ?_⟩
  · rcases exists_splits (rest ++ b) with ⟨more, rest', hmore⟩
    rcases items_append h his hplain hmore with ⟨js, failure', hgrown, -, -⟩
    exact ⟨js, failure', hgrown⟩
  · rintro offset lead value rfl b
    cases hends with
    | failed hrest he =>
      exact items_append_of_rejects h his hplain hrest (he.append_of_unknownOpcode b)
  · rintro offset needed available rfl
    cases hends with
    | failed hrest he => exact cutShort_of_rejects h his hplain hrest he

/-- Two bytes of a four-byte operand, and three. -/
example : items [0x20, 1, 2] = yielded [] (some (.truncated 0 4 2)) ∧
    items [0x20, 1, 2, 3] = yielded [] (some (.truncated 0 4 3)) := by
  decide +kernel

end CilCodec
