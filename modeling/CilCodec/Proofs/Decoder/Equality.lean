import CilCodec.Proofs.Decoder.Grammar
import CilCodec.Proofs.Instruction.Equality

/-!
# Equality of decoded bodies

Decoded lists are compared with their floating-point constants as numbers. Where two bodies differ
in nothing but the signs of zeros, the pieces in front of the first difference are the same, and the
difference itself lies in a constant that both have, so that the lists go on in step. The main
statement reads equality of the lists off the bytes.
-/
namespace CilCodec

open Instruction

/-- Both lists have a floating-point zero behind the same opcode at the same place, and its last
byte, the one with the sign, stands at the offset `n`. -/
def ShareZero (is js : List Instruction) (n : Nat) : Prop :=
  ∃ i ∈ is, ∃ j ∈ js, i.offset = j.offset ∧ i.opcode = j.opcode ∧ i.opcode.LoadsFloat ∧
    i.operand.isFloatZero = true ∧ j.operand.isFloatZero = true ∧ i.next = n + 1

/-- The bytes from the offset `start` on are the same but for the sign bits of zeros that both lists
have. -/
structure SameButSigns (start : Nat) (a b : List UInt8) (is js : List Instruction) : Prop where
  length_eq : a.length = b.length
  sign_of_ne : ∀ n p q, a[n]? = some p → b[n]? = some q → p ≠ q →
    p ^^^ q = 0x80 ∧ ShareZero is js (start + n)

variable {a b w v : List UInt8} {pieces pieces' : List (List UInt8)} {is js : List Instruction}
  {i j : Instruction} {start n : Nat}

namespace ShareZero

theorem cons (h : ShareZero is js n) : ShareZero (i :: is) (j :: js) n := by
  rcases h with ⟨i', hi, j', hj, h⟩
  exact ⟨i', List.mem_cons_of_mem i hi, j', List.mem_cons_of_mem j hj, h⟩

/-- A zero that ends within the first instructions is theirs. -/
theorem of_lt_next (h : ShareZero (i :: is) (j :: js) n)
    (hi : Transcribes start pieces (i :: is)) (hj : Transcribes start pieces' (j :: js))
    (hn : n < i.next) :
    i.opcode = j.opcode ∧ i.operand.isFloatZero = true ∧ j.operand.isFloatZero = true := by
  rcases hi.first_offset with ⟨hstart, -, his⟩
  rcases hj.first_offset with ⟨hstart', hlt, hjs⟩
  rcases h with ⟨i', hi', j', hj', hplace, hopcode, -, hzero, hzero', hlast⟩
  rcases List.mem_cons.1 hi' with rfl | hi'
  · rcases List.mem_cons.1 hj' with rfl | hj'
    · exact ⟨hopcode, hzero, hzero'⟩
    · have hle := hjs j' hj'
      omega
  · have hle := his i' hi'
    omega

theorem of_next_le (h : ShareZero (i :: is) (j :: js) n)
    (hi : Transcribes start pieces (i :: is)) (hj : Transcribes start pieces' (j :: js))
    (hn : i.next ≤ n) : ShareZero is js n := by
  rcases hi.first_offset with ⟨hstart, hlt, his⟩
  rcases hj.first_offset with ⟨hstart', -, -⟩
  rcases h with ⟨i', hi', j', hj', hplace, hopcode, hfloat, hzero, hzero', hlast⟩
  rcases List.mem_cons.1 hi' with rfl | hi'
  · omega
  · rcases List.mem_cons.1 hj' with rfl | hj'
    · have hle := his i' hi'
      omega
    · exact ⟨i', hi', j', hj', hplace, hopcode, hfloat, hzero, hzero', hlast⟩

end ShareZero

namespace SameButSigns

theorem refl (a : List UInt8) (is js : List Instruction) : SameButSigns start a a is js where
  length_eq := rfl
  sign_of_ne := by simp_all

/-- Without floating-point constants there are no signs to differ in. -/
theorem eq_of_not_isFloat (h : SameButSigns start a b is js)
    (hfloat : ∀ i ∈ is, i.operand.isFloat = false) : a = b := by
  apply List.ext_getElem h.length_eq
  intro n hn hn'
  by_contra hne
  rcases h.sign_of_ne n _ _ (List.getElem?_eq_getElem hn) (List.getElem?_eq_getElem hn') hne with
    ⟨-, i, hi, j, hj, -, -, -, hzero, -⟩
  have hisFloat := Operand.isFloat_of_isFloatZero hzero
  rw [hfloat i hi] at hisFloat
  cases hisFloat

theorem cons (hlength : w.length = v.length)
    (hhead : ∀ n p q, w[n]? = some p → v[n]? = some q → p ≠ q →
      p ^^^ q = 0x80 ∧ ShareZero (i :: is) (j :: js) (start + n))
    (h : SameButSigns (start + w.length) a b is js) :
    SameButSigns start (w ++ a) (v ++ b) (i :: is) (j :: js) where
  length_eq := by rw [List.length_append, List.length_append, hlength, h.length_eq]
  sign_of_ne := by
    intro n p q hp hq hne
    rcases Nat.lt_or_ge n w.length with hn | hn
    · rw [List.getElem?_append_left hn] at hp
      rw [List.getElem?_append_left (hlength ▸ hn)] at hq
      exact hhead n p q hp hq hne
    · rw [List.getElem?_append_right hn] at hp
      rw [List.getElem?_append_right (hlength ▸ hn), ← hlength] at hq
      rcases h.sign_of_ne _ p q hp hq hne with ⟨hbit, hzero⟩
      rw [Nat.add_assoc, Nat.add_sub_cancel' hn] at hzero
      exact ⟨hbit, hzero.cons⟩

theorem of_cons (h : SameButSigns start (w ++ a) (v ++ b) (i :: is) (j :: js))
    (hi : Transcribes start pieces (i :: is)) (hj : Transcribes start pieces' (j :: js))
    (hlength : w.length = v.length) (hnext : i.next = start + w.length) :
    SameButSigns (start + w.length) a b is js where
  length_eq := by
    have hlengths := h.length_eq
    simp only [List.length_append] at hlengths
    omega
  sign_of_ne := by
    intro n p q hp hq hne
    have hp' : (w ++ a)[w.length + n]? = some p := by
      rw [List.getElem?_append_right (Nat.le_add_right _ _), Nat.add_sub_cancel_left, hp]
    have hq' : (v ++ b)[w.length + n]? = some q := by
      rw [hlength, List.getElem?_append_right (Nat.le_add_right _ _), Nat.add_sub_cancel_left, hq]
    rcases h.sign_of_ne _ p q hp' hq' hne with ⟨hbit, hzero⟩
    rw [← Nat.add_assoc] at hzero
    exact ⟨hbit, hzero.of_next_le hi hj (by omega)⟩

/-- The second body begins with the bytes of the first instruction as well, or both instructions end
in the sign of a zero. -/
theorem head (h : SameButSigns start (w ++ a) b (i :: is) (j :: js))
    (hi : Transcribes start pieces (i :: is)) (hj : Transcribes start pieces' (j :: js))
    (hnext : i.next = start + w.length) :
    (∃ after, b = w ++ after) ∨
      i.opcode = j.opcode ∧ i.operand.isFloatZero = true ∧ j.operand.isFloatZero = true := by
  by_cases hagree : ∀ n < w.length, b[n]? = (w ++ a)[n]?
  · left
    have htake : b.take w.length = w := by
      apply List.ext_getElem?
      intro n
      rw [List.getElem?_take]
      split
      · next hn => rw [hagree n hn, List.getElem?_append_left hn]
      · next hn => rw [List.getElem?_eq_none (Nat.not_lt.1 hn)]
    have hsplit := List.take_append_drop w.length b
    rw [htake] at hsplit
    exact ⟨_, hsplit.symm⟩
  · right
    push Not at hagree
    rcases hagree with ⟨n, hn, hne⟩
    have hlt : n < (w ++ a).length := by
      rw [List.length_append]
      omega
    have hlt' : n < b.length := h.length_eq ▸ hlt
    rw [List.getElem?_eq_getElem hlt, List.getElem?_eq_getElem hlt'] at hne
    rcases h.sign_of_ne n _ _ (List.getElem?_eq_getElem hlt) (List.getElem?_eq_getElem hlt')
      (fun heq => hne (congrArg some heq.symm)) with ⟨-, hzero⟩
    exact hzero.of_lt_next hi hj (by omega)

theorem equal_head (h : SameButSigns start (w ++ a) (v ++ b) (i :: is) (j :: js))
    (hi : Transcribes start pieces (i :: is)) (hj : Transcribes start pieces' (j :: js))
    (hw : Spells i.opcode i.operand w) (hv : Spells j.opcode j.operand v)
    (hnext : i.next = start + w.length) (hnan : i.operand.isNaN = false)
    (hnan' : j.operand.isNaN = false) :
    i.opcode = j.opcode ∧ w.length = v.length ∧ i.operand.equal j.operand = true := by
  rcases h.head hi hj hnext with ⟨after, hsplit⟩ | ⟨hopcode, hzero, hzero'⟩
  · rcases hw.unique hv hsplit.symm with ⟨hopcode, hoperand, hbytes, -⟩
    rw [hopcode] at hw
    exact ⟨hopcode, congrArg List.length hbytes,
      (equal_iff_of_spells hw hv).2 ⟨hnan, hnan', .inl hoperand⟩⟩
  · rw [hopcode] at hw
    exact ⟨hopcode, (Instruction.sign_of_ne hw hv hzero hzero').1,
      (equal_iff_of_spells hw hv).2 ⟨hnan, hnan', .inr ⟨hzero, hzero'⟩⟩⟩

end SameButSigns

/-- Equal lists have no NaN, and their pieces are the same but for signs. -/
theorem sameButSigns_of_equal (h : Transcribes start pieces is) (h' : Transcribes start pieces' js)
    (heq : equalInstructions is js = true) :
    (∀ i ∈ is, i.operand.isNaN = false) ∧ (∀ j ∈ js, j.operand.isNaN = false) ∧
      SameButSigns start pieces.flatten pieces'.flatten is js := by
  induction h generalizing pieces' js with
  | nil start =>
    cases h' with
    | nil => exact ⟨List.forall_mem_nil _, List.forall_mem_nil _, .refl [] [] []⟩
    | cons => cases heq
  | @cons start w pieces i is hoffset hsize hspells htargets htail ih =>
    cases h' with
    | nil => cases heq
    | @cons _ v pieces' j js hoffset' hsize' hspells' htargets' htail' =>
      rw [equalInstructions, Bool.and_eq_true] at heq
      rcases heq with ⟨hij, heq⟩
      simp only [Instruction.equal, Bool.and_eq_true, beq_iff_eq] at hij
      have hopcode : i.opcode = j.opcode := hij.1.1.1.2
      have hoperand : i.operand.equal j.operand = true := hij.1.1.2
      rw [← hopcode] at hspells'
      rcases (equal_iff_of_spells hspells hspells').1 hoperand with ⟨hnan, hnan', -⟩
      rcases sign_of_equal hspells hspells' hoperand with ⟨hlength, hsign⟩
      rw [← hlength] at htail'
      rcases ih htail' heq with ⟨his, hjs, hsame⟩
      refine ⟨List.forall_mem_cons.2 ⟨hnan, his⟩, List.forall_mem_cons.2 ⟨hnan', hjs⟩, ?_⟩
      apply hsame.cons hlength
      intro n p q hp hq hne
      rcases hsign n p q hp hq hne with ⟨hbit, hlast, hzero, hzero'⟩
      have hnext : i.next = start + n + 1 := by
        rw [next, hoffset, hsize, ← hlast, Nat.add_assoc]
      exact ⟨hbit, i, List.mem_cons_self, j, List.mem_cons_self, hoffset.trans hoffset'.symm,
        hopcode, loadsFloat_of_isFloat hspells (Operand.isFloat_of_isFloatZero hzero), hzero, hzero',
        hnext⟩

theorem equal_of_sameButSigns (h : Transcribes start pieces is)
    (h' : Transcribes start pieces' js) (hi : ∀ i ∈ is, i.resolution = .notAttempted)
    (hj : ∀ j ∈ js, j.resolution = .notAttempted) (hnan : ∀ i ∈ is, i.operand.isNaN = false)
    (hnan' : ∀ j ∈ js, j.operand.isNaN = false)
    (hsame : SameButSigns start pieces.flatten pieces'.flatten is js) :
    equalInstructions is js = true := by
  induction h generalizing pieces' js with
  | nil start =>
    cases js with
    | nil => rfl
    | cons j js => exact absurd hsame.length_eq (Nat.ne_of_lt h'.length_pos)
  | @cons start w pieces i is hoffset hsize hspells htargets htail ih =>
    have hfirst : Transcribes start (w :: pieces) (i :: is) :=
      .cons hoffset hsize hspells htargets htail
    have hfirst' := h'
    cases h' with
    | nil => exact absurd hsame.length_eq (Nat.ne_of_gt hfirst.length_pos)
    | @cons _ v pieces' j js hoffset' hsize' hspells' htargets' htail' =>
      rw [List.forall_mem_cons] at hi hj hnan hnan'
      have hnext : i.next = start + w.length := by rw [next, hoffset, hsize]
      rcases hsame.equal_head hfirst hfirst' hspells hspells' hnext hnan.1 hnan'.1 with
        ⟨hopcode, hlength, hoperand⟩
      have hij : i.equal j = true := by
        apply equal_of_operand_equal (hoffset.trans hoffset'.symm) _ hopcode hoperand
          (hi.1.trans hj.1.symm) htargets htargets'
        rw [hsize, hsize', hlength]
      have hrest := hsame.of_cons hfirst hfirst' hlength hnext
      rw [← hlength] at htail'
      rw [equalInstructions, hij, Bool.true_and]
      exact ih htail' hi.2 hj.2 hnan.2 hnan'.2 hrest

theorem equalResults_iff (ha : decode a = .ok is) (hb : decode b = .ok js) :
    equalResults (decode a) (decode b) = true ↔
      (∀ i ∈ is, i.operand.isNaN = false) ∧ (∀ j ∈ js, j.operand.isNaN = false) ∧
        SameButSigns 0 a b is js := by
  rw [ha, hb, equalResults]
  rcases transcribes_of_decode ha with ⟨pieces, rfl, his, hplain⟩
  rcases transcribes_of_decode hb with ⟨pieces', rfl, hjs, hplain'⟩
  constructor
  · exact sameButSigns_of_equal his hjs
  · rintro ⟨hnan, hnan', hsame⟩
    exact equal_of_sameButSigns his hjs hplain hplain' hnan hnan' hsame

/-- What equality of decoded bodies means. The lists are equal if and only if they hold no NaN and
the bytes are the same but for the signs of zeros; without floating-point constants that is equality
of the bytes; and a list differs from itself if and only if it holds a NaN. -/
theorem equalResults_decode (ha : decode a = .ok is) (hb : decode b = .ok js) :
    (equalResults (decode a) (decode b) = true ↔
      (∀ i ∈ is, i.operand.isNaN = false) ∧ (∀ j ∈ js, j.operand.isNaN = false) ∧
        SameButSigns 0 a b is js) ∧
    ((∀ i ∈ is, i.operand.isFloat = false) →
      (equalResults (decode a) (decode b) = true ↔ a = b)) ∧
    (equalResults (decode a) (decode a) = false ↔ ∃ i ∈ is, i.operand.isNaN = true) := by
  have hself : equalResults (decode a) (decode a) = true ↔ ∀ i ∈ is, i.operand.isNaN = false := by
    rw [equalResults_iff ha ha]
    exact ⟨And.left, fun hnan => ⟨hnan, hnan, .refl a is is⟩⟩
  refine ⟨equalResults_iff ha hb, ?_, ?_⟩
  · intro hfloat
    constructor
    · intro heq
      exact ((equalResults_iff ha hb).1 heq).2.2.eq_of_not_isFloat hfloat
    · rintro rfl
      apply hself.2
      intro i hi
      by_contra hnan
      have hisFloat := Operand.isFloat_of_isNaN (Bool.not_eq_false _ ▸ hnan)
      rw [hfloat i hi] at hisFloat
      cases hisFloat
  · rw [← Bool.not_eq_true, hself]
    simp

/-- Loads of the two zeros are equal and have different bytes. -/
theorem equalResults_decode_zeros :
    let a : List UInt8 := [0x22, 0, 0, 0, 0]
    let b : List UInt8 := [0x22, 0, 0, 0, 0x80]
    let i : Instruction :=
      ⟨0, 5, .singleByte 0x22, .immediate (.float32 0), .notAttempted, []⟩
    let j : Instruction :=
      ⟨0, 5, .singleByte 0x22, .immediate (.float32 0x80000000), .notAttempted, []⟩
    decode a = .ok [i] ∧ decode b = .ok [j] ∧ equalResults (decode a) (decode b) = true ∧
      SameButSigns 0 a b [i] [j] ∧ a ≠ b := by
  intro a b i j
  have ha : decode a = .ok [i] := by decide +kernel
  have hb : decode b = .ok [j] := by decide +kernel
  have heq : equalResults (decode a) (decode b) = true := by decide +kernel
  exact ⟨ha, hb, heq, ((equalResults_decode ha hb).1.1 heq).2.2, by decide⟩

end CilCodec
