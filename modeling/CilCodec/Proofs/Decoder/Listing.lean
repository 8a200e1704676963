import CilCodec.Proofs.Decoder.Grammar
import CilCodec.Proofs.Instruction.Targets

/-!
# Listings tell bodies apart

The line of an instruction is cut again into its label, its mnemonic and its operand. The mnemonic
gives the opcode, and behind it each text is that of one operand at most, since a table shows as many
entries as it has and no label looks like a signed number. Only floating-point constants are left
out. The main statement is that no two bodies without such constants have the same listing.
-/
namespace CilCodec

/-- The instruction is as decoding lists it where no token is asked about. -/
structure Instruction.Plain (i : Instruction) : Prop where
  spelled : ∃ w, Spells i.opcode i.operand w ∧ i.size = w.length
  targets_eq : i.targets = i.operand.targets i.next
  resolution_eq : i.resolution = .notAttempted

variable {data a b w v : List UInt8} {is js : List Instruction} {i j : Instruction} {o : Opcode}
  {kind : OperandKind} {x y : Operand} {next next' : Nat}

namespace Operand

/-- What is shown of the deltas determines them, as long as their number determines where they lead
from. -/
theorem deltas_eq_of_shown_eq (hnext : x.deltas.length = y.deltas.length → next = next')
    (h : shownDestinations x.deltas (x.targets next) =
      shownDestinations y.deltas (y.targets next')) : x.deltas = y.deltas := by
  have hlength : x.deltas.length = y.deltas.length := by
    rw [← length_shownDestinations x.deltas, h, length_shownDestinations]
  obtain rfl := hnext hlength
  unfold shownDestinations at h
  split at h <;> split at h
  · next hx hy =>
    apply deltas_eq_of_destinations_eq next
    rw [← map_targets_of_length_eq hx, ← map_targets_of_length_eq hy,
      List.map_injective_iff.2 label_injective h]
  · have hnil := eq_nil_of_labels_eq h
    rw [hnil, List.length_nil, List.length_eq_zero_iff] at hlength
    rw [hnil, hlength]
  · have hnil := eq_nil_of_labels_eq h.symm
    rw [hnil, List.length_nil, eq_comm, List.length_eq_zero_iff] at hlength
    rw [hnil, hlength]
  · apply List.map_injective_iff.2 _ h
    intro d e heq
    exact Int32.toInt_inj.1 (Numeral.signed_injective heq)

theorem deltas_eq_of_textWith_eq (hnext : x.deltas.length = y.deltas.length → next = next')
    (h : x.textWith (shownDestinations x.deltas (x.targets next)) =
      x.textWith (shownDestinations y.deltas (y.targets next'))) : x.deltas = y.deltas :=
  deltas_eq_of_shown_eq hnext
    (textWith_inj (isEntry_shownDestinations _ _) (isEntry_shownDestinations _ _) h)

theorem constant_text_eq {c d : Immediate} {targets targets' : List Nat}
    (h : (immediate c).text targets = (immediate d).text targets') : c.text = d.text := by
  simpa [text] using h

theorem slot_eq_of_text_eq {m n : UInt16} {targets targets' : List Nat}
    (h : (slot m).text targets = (slot n).text targets') : slot m = slot n := by
  have h : Numeral.decimal m.toNat = Numeral.decimal n.toNat := by simpa [text] using h
  rw [UInt16.toNat_inj.1 (Int.ofNat.inj (Numeral.decimal_injective h))]

theorem branch_eq_of_text_eq {d e : Int32}
    (h : (branch d).text ((branch d).targets next) = (branch e).text ((branch e).targets next)) :
    branch d = branch e := by
  rw [text_eq_textWith (by simp [deltas]) (length_targets_le _ _),
    text_eq_textWith (by simp [deltas]) (length_targets_le _ _)] at h
  have hdeltas := deltas_eq_of_textWith_eq (fun _ => rfl) h
  exact congrArg branch (List.cons.inj hdeltas).1

end Operand

/-- Of the operands of one kind only floating-point constants may share a text. -/
theorem OperandKind.eq_of_text_eq (hx : kind.Spells x w) (hy : kind.Spells y v)
    (hsingle : kind ≠ .shortInlineR) (hdouble : kind ≠ .inlineR)
    (hnext : w.length = v.length → next = next')
    (h : x.text (x.targets next) = y.text (y.targets next')) : x = y := by
  cases hx <;> cases hy
  -- Only tokens have several kinds, and no other operand has one of these.
  all_goals try first | contradiction | cases ‹isToken _ = true›
  case none.none => rfl
  case int8.int8 =>
    rw [Int8.toInt_inj.1 (Numeral.decimal_injective (Operand.constant_text_eq h))]
  case int32.int32 =>
    rw [Int32.toInt_inj.1 (Numeral.decimal_injective (Operand.constant_text_eq h))]
  case int64.int64 =>
    rw [Int64.toInt_inj.1 (Numeral.decimal_injective (Operand.constant_text_eq h))]
  case shortSlot.shortSlot | slot.slot => exact Operand.slot_eq_of_text_eq h
  case shortBranch.shortBranch | branch.branch =>
    obtain rfl := hnext (by simp only [ScalarType.length_encode])
    exact Operand.branch_eq_of_text_eq h
  case token.token v _ v' _ =>
    have h : Numeral.upperHex 8 v.toNat = Numeral.upperHex 8 v'.toNat := by
      simpa [Operand.text, Token.text] using h
    rw [UInt32.toNat_inj.1 (Numeral.upperHex_injective 8 h)]
  case switch.switch deltas hlt deltas' hlt' =>
    apply congrArg Operand.switch
    apply Operand.deltas_eq_of_textWith_eq (x := .switch deltas) (y := .switch deltas') _ h
    intro hlength
    apply hnext
    rw [length_of_spells_switch (.switch deltas hlt), length_of_spells_switch (.switch deltas' hlt')]
    exact congrArg (4 + 4 * ·) hlength

theorem Operand.eq_space_of_mem_head? {c : Char} {targets : List Nat}
    (h : c ∈ (x.text targets).toList.head?) : c = ' ' := by
  cases x <;> simp [text] at h
  all_goals exact h.symm

namespace Instruction

/-- The line of an instruction without a symbol, cut behind its label and its mnemonic. -/
theorem toList_line (h : i.resolution = .notAttempted) :
    i.line.toList = (label i.offset).toList ++
      ':' :: ' ' :: (i.mnemonic.toList ++ (i.operand.text i.targets).toList) := by
  simp [line, body, h, Resolution.text]

theorem parts_of_line_eq (hi : i.opcode ∈ Opcode.defined) (hj : j.opcode ∈ Opcode.defined)
    (hplain : i.resolution = .notAttempted) (hplain' : j.resolution = .notAttempted)
    (h : i.line = j.line) :
    i.offset = j.offset ∧ i.mnemonic = j.mnemonic ∧
      i.operand.text i.targets = j.operand.text j.targets := by
  have hlists := congrArg String.toList h
  rw [toList_line hplain, toList_line hplain'] at hlists
  -- The first colon ends the label, and the first space behind it the mnemonic.
  have hlabel (n : Nat) : ∀ c ∈ (label n).toList, c ≠ ':' := by
    rintro c hc rfl
    rcases mem_label hc with h | h <;> exact absurd h (by decide)
  rcases Separated.append_inj (P := (· ≠ ':')) (hlabel _) (hlabel _) (by simp) (by simp) hlists
    with ⟨hoffset, hbehind⟩
  injection hbehind with _ hbehind
  injection hbehind with _ hbehind
  have hname {o : Opcode} (ho : o ∈ Opcode.defined) : ∀ c ∈ o.mnemonic.toList, c ≠ ' ' := by
    rintro c hc rfl
    exact Opcode.space_notMem_mnemonic ho hc
  rcases Separated.append_inj (P := (· ≠ ' ')) (hname hi) (hname hj)
    (fun c hc hne => hne (Operand.eq_space_of_mem_head? hc))
    (fun c hc hne => hne (Operand.eq_space_of_mem_head? hc)) hbehind with ⟨hmnemonic, htext⟩
  exact ⟨label_injective (String.toList_inj.1 hoffset), String.toList_inj.1 hmnemonic,
    String.toList_inj.1 htext⟩

/-- Behind one opcode the text of an operand that is no floating-point constant determines the
operand. -/
theorem operand_eq_of_text_eq (hspells : Spells o x w) (hspells' : Spells o y v)
    (hfloat : ¬ o.LoadsFloat) (hnext : w.length = v.length → next = next')
    (h : x.text (x.targets next) = y.text (y.targets next')) : x = y := by
  have ho := (spells_iff_encode.1 hspells).1
  cases hspells with
  | intro hhead htail =>
    cases hspells' with
    | intro hhead' htail' =>
      apply OperandKind.eq_of_text_eq htail htail' _ _ _ h
      · exact fun hkind => hfloat (Opcode.loadsFloat_of_kind ho (.inl hkind))
      · exact fun hkind => hfloat (Opcode.loadsFloat_of_kind ho (.inr hkind))
      · intro hlength
        apply hnext
        rw [List.length_append, List.length_append, hlength, ← Opcode.bytes_of_spells hhead,
          ← Opcode.bytes_of_spells hhead']

/-- The line determines the instruction, whether it shows labels or deltas. -/
theorem Plain.eq_of_line_eq (hi : i.Plain) (hj : j.Plain) (hfloat : ¬ i.opcode.LoadsFloat)
    (h : i.line = j.line) : i = j := by
  rcases i with ⟨start, size, o, x, resolution, targets⟩
  rcases j with ⟨start', size', p, y, resolution', targets'⟩
  rcases hi with ⟨⟨w, hspells, hsize⟩, htargets, hplain⟩
  rcases hj with ⟨⟨v, hspells', hsize'⟩, htargets', hplain'⟩
  have hdefined := (spells_iff_encode.1 hspells).1
  have hdefined' := (spells_iff_encode.1 hspells').1
  rcases parts_of_line_eq hdefined hdefined' hplain hplain' h with ⟨hstart, hmnemonic, htext⟩
  have hopcode := Opcode.eq_of_mnemonic_eq hdefined hdefined' hmnemonic
  dsimp only [Instruction.next] at *
  subst hstart hopcode hsize hsize' htargets htargets' hplain hplain'
  obtain rfl := operand_eq_of_text_eq hspells hspells' hfloat (congrArg (start + ·)) htext
  rw [hspells.bytes_unique hspells']

end Instruction

theorem plain_of_decode (h : decode data = .ok is) : ∀ i ∈ is, i.Plain := by
  intro i hi
  rcases transcribes_of_decode h with ⟨pieces, -, his, hplain⟩
  rcases his.exists_piece hi with ⟨w, -, hspells, hsize, htargets, -, -⟩
  exact ⟨⟨w, hspells, hsize⟩, htargets, hplain i hi⟩

/-- Bodies with the same listing are the same, if one of them loads no floating-point constant. Each
line alone, of whatever body, determines the place, the opcode and the operand. -/
theorem listing_faithful (ha : decode a = .ok is) (hb : decode b = .ok js) :
    ((∀ i ∈ is, ¬ i.opcode.LoadsFloat) →
      is.map Instruction.line = js.map Instruction.line → a = b) ∧
    ∀ i ∈ is, ∀ j ∈ js, ¬ i.opcode.LoadsFloat → i.line = j.line →
      i.offset = j.offset ∧ i.opcode = j.opcode ∧ i.operand = j.operand := by
  have hline : ∀ i ∈ is, ∀ j ∈ js, ¬ i.opcode.LoadsFloat → i.line = j.line → i = j :=
    fun i hi j hj => (plain_of_decode ha i hi).eq_of_line_eq (plain_of_decode hb j hj)
  constructor
  · intro hfloat hlines
    have heq : is = js := by
      apply List.ext_getElem (by simpa using congrArg List.length hlines)
      intro n hi hj
      apply hline _ (List.getElem_mem hi) _ (List.getElem_mem hj) (hfloat _ (List.getElem_mem hi))
      simpa [hi, hj] using congrArg (·[n]?) hlines
    rw [← heq] at hb
    exact eq_of_decode_eq ha hb
  · intro i hi j hj hfloat h
    rw [hline i hi j hj hfloat h]
    exact ⟨rfl, rfl, rfl⟩

/-- A table that leads to itself is shown by a label, and one that leads in front of the body by its
delta, so the listings differ. -/
theorem listing_faithful_table :
    let a : List UInt8 := [0x45, 1, 0, 0, 0, 0xf7, 0xff, 0xff, 0xff]
    let b : List UInt8 := [0x45, 1, 0, 0, 0, 0xf6, 0xff, 0xff, 0xff]
    let i : Instruction := ⟨0, 9, .singleByte 0x45, .switch [-9], .notAttempted, [0]⟩
    let j : Instruction := ⟨0, 9, .singleByte 0x45, .switch [-10], .notAttempted, []⟩
    decode a = .ok [i] ∧ decode b = .ok [j] ∧ ¬ i.opcode.LoadsFloat ∧
      i.line = "IL_0000: switch (IL_0000)" ∧ j.line = "IL_0000: switch (-10)" ∧
      [i].map Instruction.line ≠ [j].map Instruction.line := by
  intro a b i j
  have ha : decode a = .ok [i] := by decide +kernel
  have hb : decode b = .ok [j] := by decide +kernel
  have hfloat : ¬ i.opcode.LoadsFloat := by
    unfold Opcode.LoadsFloat
    decide +kernel
  refine ⟨ha, hb, hfloat, by decide +kernel, by decide +kernel, ?_⟩
  intro hlines
  have hab : a = b := (listing_faithful ha hb).1 (by simpa using hfloat) hlines
  exact absurd hab (by decide)

end CilCodec
