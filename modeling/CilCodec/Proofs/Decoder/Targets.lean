import CilCodec.Proofs.Decoder.Grammar
import CilCodec.Proofs.Instruction.Targets

/-!
# Targets of decoded branches

In a body whose offsets are signed words no delta leads past the last word, so that the targets of a
decoded instruction are its destinations without those in front of the body, and a listing shows
labels exactly where none is in front of it. The main statement is about every instruction that a
decoder yields, that a body is decoded to or that is read at a cursor, where targets are worked out.
-/
namespace CilCodec

/-- The targets of an instruction are exact, and a listing shows them where all are there. -/
structure Instruction.TargetsExact (i : Instruction) : Prop where
  /-- The destinations in front of the body are left out and no others; the order stays. -/
  map_targets : i.targets.map Int.ofNat = (i.operand.destinations i.next).filter (0 ≤ ·)
  destination_lt : ∀ d ∈ i.operand.destinations i.next, d < Word.range
  targets_eq_nil : i.operand.branch? = none → i.operand.switch? = none → i.targets = []
  /-- The line has the labels of the targets exactly if nothing was left out, -/
  shows_labels_iff : i.operand.deltas ≠ [] →
    (i.line = i.lineWith (i.operand.textWith (i.targets.map label)) ↔
      ∀ d ∈ i.operand.destinations i.next, 0 ≤ d)
  /-- and otherwise all deltas and no label. -/
  shows_deltas : (∃ d ∈ i.operand.destinations i.next, d < 0) →
    i.line = i.lineWith (i.operand.textWith
      (i.operand.deltas.map fun delta => Numeral.signed delta.toInt)) ∧
    ∀ target, ¬ (label target).toList <:+: (i.operand.text i.targets).toList

variable {σ : Type} {data : List UInt8} {i : Instruction} {x : Operand} {next : Nat}

namespace Operand

/-- Behind an end that is a signed word no delta leads past the last word. -/
theorem destination_lt (h : next < Word.range / 2) : ∀ d ∈ x.destinations next, d < Word.range := by
  intro d hd
  rcases List.mem_map.1 hd with ⟨delta, -, rfl⟩
  have hdelta := delta.toInt_lt
  have hrange : Word.range = 0x10000000000000000 := rfl
  omega

theorem map_targets_of_lt (h : next < Word.range / 2) :
    (x.targets next).map Int.ofNat = (x.destinations next).filter (0 ≤ ·) := by
  rw [map_targets]
  apply List.filter_congr
  intro d hd
  simp [destination_lt h d hd]

theorem length_targets_eq_iff_of_lt (h : next < Word.range / 2) :
    (x.targets next).length = x.deltas.length ↔ ∀ d ∈ x.destinations next, 0 ≤ d := by
  rw [length_targets_eq_iff]
  exact ⟨fun hall d hd => (hall d hd).1, fun hall d hd => ⟨hall d hd, destination_lt h d hd⟩⟩

end Operand

theorem shownDestinations_eq_labels_iff (h : x.deltas ≠ []) (hnext : next < Word.range / 2) :
    shownDestinations x.deltas (x.targets next) = (x.targets next).map label ↔
      ∀ d ∈ x.destinations next, 0 ≤ d := by
  rw [← Operand.length_targets_eq_iff_of_lt hnext, shownDestinations]
  split
  · next hlength => exact iff_of_true rfl hlength
  · next hlength =>
    apply iff_of_false _ hlength
    intro hsigned
    exact h (eq_nil_of_labels_eq hsigned.symm)

namespace Instruction

theorem shows_labels_iff (htargets : i.targets = i.operand.targets i.next)
    (hnext : i.next < Word.range / 2) (h : i.operand.deltas ≠ []) :
    i.line = i.lineWith (i.operand.textWith (i.targets.map label)) ↔
      ∀ d ∈ i.operand.destinations i.next, 0 ≤ d := by
  have hline : i.line = i.lineWith (i.operand.text i.targets) := rfl
  rw [← shownDestinations_eq_labels_iff h hnext, ← htargets, hline, text_eq htargets h]
  constructor
  · intro heq
    apply Operand.textWith_inj (isEntry_shownDestinations _ _) _ (lineWith_inj heq)
    simp [isEntry_label]
  · intro heq
    rw [heq]

theorem shows_deltas (htargets : i.targets = i.operand.targets i.next)
    (hnext : i.next < Word.range / 2) (h : ∃ d ∈ i.operand.destinations i.next, d < 0) :
    i.line = i.lineWith (i.operand.textWith
      (i.operand.deltas.map fun delta => Numeral.signed delta.toInt)) ∧
    ∀ target, ¬ (label target).toList <:+: (i.operand.text i.targets).toList := by
  rcases h with ⟨d, hd, hneg⟩
  have hdeltas : i.operand.deltas ≠ [] := by
    intro hnil
    simp [Operand.destinations, hnil] at hd
  have hlength : i.targets.length ≠ i.operand.deltas.length := by
    intro heq
    rw [htargets, Operand.length_targets_eq_iff_of_lt hnext] at heq
    exact absurd (heq d hd) (Int.not_le.2 hneg)
  have htext := text_eq htargets hdeltas
  rw [shownDestinations, if_neg hlength] at htext
  constructor
  · exact congrArg i.lineWith htext
  · intro target hlabel
    rw [htext] at hlabel
    exact Operand.not_mem_textWith_signed (hlabel.subset (mem_toList_label target))

theorem targetsExact_of_lt (htargets : i.targets = i.operand.targets i.next)
    (hnext : i.next < Word.range / 2) : i.TargetsExact where
  map_targets := by rw [htargets, Operand.map_targets_of_lt hnext]
  destination_lt := Operand.destination_lt hnext
  targets_eq_nil := by
    intro hbranch hswitch
    rw [htargets, Operand.targets]
    cases hx : i.operand with
    | branch _ | switch _ => simp [hx, Operand.branch?, Operand.switch?] at hbranch hswitch
    | none | immediate _ | slot _ | token _ => rfl
  shows_labels_iff := shows_labels_iff htargets hnext
  shows_deltas := shows_deltas htargets hnext

end Instruction

theorem Cursor.position_add_le {c : Cursor data} {w after : List UInt8} (h : c.rest = w ++ after)
    (hw : 0 < w.length) : c.position + w.length ≤ data.length := by
  have hremaining := c.remaining_eq
  rw [Cursor.remaining_of_rest h] at hremaining
  omega

theorem Instruction.targets_of_read {config : Config} {c c' : Cursor data}
    (h : Instruction.read config c = .ok i c') (hconfig : config.computesTargets = true) :
    i.targets = i.operand.targets i.next ∧ i.next ≤ data.length := by
  rcases spells_of_read h with ⟨o, x, w, after, hw, hrest, rfl, -⟩
  constructor
  · simp [unresolved, hconfig, next]
  · exact Cursor.position_add_le hrest hw.length_pos

/-- Asking a resolver changes no target of the instruction that a decoder yields. -/
theorem Decoder.targets_of_next {d : Decoder σ data} (h : d.next.result = some (.ok i))
    (hconfig : d.config.computesTargets = true) :
    i.targets = i.operand.targets i.next ∧ i.next ≤ data.length := by
  by_cases hphase : d.phase = .positioned
  · rcases next_cases d hphase with ⟨-, hnext⟩ |
      ⟨o, x, w, after, resolution, s, events, hw, hrest, hnext, -⟩ | ⟨e, c, events, -, -, hnext⟩
    · simp [hnext] at h
    · obtain rfl : _ = i := by simpa [hnext] using h
      constructor
      · simp [Instruction.unresolved, hconfig, Instruction.next]
      · exact Cursor.position_add_le hrest hw.length_pos
    · simp [hnext] at h
  · simp [next_of_not_positioned hphase] at h

/-- The targets are exact in every body of at most `2 ^ 63 - 1` bytes: of what a decoder yields in
whatever state it is, of what a body is decoded to with any resolver, and of what is read at any
cursor, as long as targets are worked out. -/
theorem targets_exact (data : List UInt8) (hlength : data.length < Word.range / 2)
    (scope : Option (Scope σ)) (s : σ) :
    (∀ (d : Decoder σ data) i, d.config.computesTargets = true →
      d.next.result = some (.ok i) → i.TargetsExact) ∧
    (∀ is, (decodeWith data scope s).result = .ok is → ∀ i ∈ is, i.TargetsExact) ∧
    ∀ (config : Config) (c c' : Cursor data) i, config.computesTargets = true →
      Instruction.read config c = .ok i c' → i.TargetsExact := by
  have hexact {i : Instruction}
      (h : i.targets = i.operand.targets i.next ∧ i.next ≤ data.length) : i.TargetsExact :=
    Instruction.targetsExact_of_lt h.1 (h.2.trans_lt hlength)
  refine ⟨?_, ?_, ?_⟩
  · intro d i hconfig hnext
    exact hexact (Decoder.targets_of_next hnext hconfig)
  · intro is hdecode i hi
    rcases transcribes_of_decodeWith hdecode with ⟨pieces, rfl, his⟩
    rcases his.exists_piece hi with ⟨w, -, -, -, htargets, -, hnext⟩
    rw [Nat.zero_add] at hnext
    exact hexact ⟨htargets, hnext⟩
  · intro config c c' i hconfig hread
    exact hexact (Instruction.targets_of_read hread hconfig)

/-- A table whose second entry leads in front of the body has one target and is shown by deltas. -/
theorem targets_exact_table :
    let data : List UInt8 := [0x45, 2, 0, 0, 0, 5, 0, 0, 0, 0xf0, 0xff, 0xff, 0xff]
    let i : Instruction :=
      ⟨0, 13, .singleByte 0x45, .switch [5, -16], .notAttempted, [18]⟩
    data.length < Word.range / 2 ∧ decode data = .ok [i] ∧ i.TargetsExact ∧
      i.line = "IL_0000: switch (+5, -16)" := by
  intro data i
  have hlength : data.length < Word.range / 2 := by decide
  have hdecode : decode data = .ok [i] := by decide +kernel
  refine ⟨hlength, hdecode, ?_, by decide +kernel⟩
  exact (targets_exact data hlength (none : Option (Scope Unit)) ()).2.1 [i] hdecode i (by simp)

end CilCodec
