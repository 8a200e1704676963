import CilCodec.Instruction.Listing
import CilCodec.Proofs.Text.Numeral
import CilCodec.Proofs.Text.Separated
import Mathlib.Data.List.Infix

/-!
# Targets and destinations

A delta leads from the end of its instruction to a destination, a whole number that may lie in front
of the body. The targets are the destinations that are words. Since a target is missing for each
destination that is none, comparing lengths tells whether all are there, and so a listing shows
labels where every delta has a target and signed deltas where one has not. The main statements hold
for one delta and for jump tables alike.
-/
namespace CilCodec

variable {c : Char} {next : Nat} {x : Operand} {deltas : List Int32} {targets : List Nat}

/-- Where the deltas of the operand lead from the end of the instruction. -/
def Operand.destinations (next : Nat) (x : Operand) : List Int :=
  x.deltas.map fun delta => next + delta.toInt

def shownDestinations (deltas : List Int32) (targets : List Nat) : List String :=
  if targets.length = deltas.length then targets.map label
  else deltas.map fun delta => Numeral.signed delta.toInt

def Operand.textWith (x : Operand) (entries : List String) : String :=
  match x with
  | switch _ => " " ++ ("(" ++ ", ".intercalate entries ++ ")")
  | _ => " " ++ ", ".intercalate entries

def Instruction.lineWith (i : Instruction) (operand : String) : String :=
  label i.offset ++ ": " ++ i.mnemonic ++ operand ++ i.resolution.text

namespace Word

theorem displaced?_eq (offset : Nat) (distance : Int) :
    (displaced? offset distance).map Int.ofNat =
      if 0 ≤ offset + distance ∧ offset + distance < range then some (offset + distance)
      else none := by
  unfold displaced?
  dsimp only
  split
  · next h => exact congrArg some (Int.toNat_of_nonneg h.1)
  · rfl

end Word

namespace Operand

/-- The targets are the destinations that are words, in their order. -/
theorem map_targets (next : Nat) (x : Operand) :
    (x.targets next).map Int.ofNat =
      (x.destinations next).filter fun d : Int => 0 ≤ d ∧ d < Word.range := by
  rw [targets, destinations, List.map_filterMap, ← List.filterMap_eq_filter, List.filterMap_map]
  congr 1
  funext delta
  simp [Word.displaced?_eq, Option.guard]

theorem deltas_eq_of_destinations_eq {y : Operand} (next : Nat)
    (h : x.destinations next = y.destinations next) : x.deltas = y.deltas := by
  apply List.map_injective_iff.2 _ h
  intro d e heq
  apply Int32.toInt_inj.1
  simpa using heq

theorem length_targets_le (next : Nat) (x : Operand) :
    (x.targets next).length ≤ x.deltas.length := List.length_filterMap_le _ _

theorem length_targets_eq_iff :
    (x.targets next).length = x.deltas.length ↔
      ∀ d ∈ x.destinations next, 0 ≤ d ∧ d < Word.range := by
  have hlength := congrArg List.length (map_targets next x)
  have hdeltas : (x.destinations next).length = x.deltas.length := List.length_map _
  rw [List.length_map] at hlength
  rw [hlength, ← hdeltas, List.length_filter_eq_length_iff]
  simp

theorem map_targets_of_length_eq (h : (x.targets next).length = x.deltas.length) :
    (x.targets next).map Int.ofNat = x.destinations next := by
  rw [map_targets, List.filter_eq_self]
  simpa using length_targets_eq_iff.1 h

/-- What is shown behind the mnemonic of a branch or a jump table with entries. -/
theorem text_eq_textWith (h : x.deltas ≠ []) (hle : targets.length ≤ x.deltas.length) :
    x.text targets = x.textWith (shownDestinations x.deltas targets) := by
  cases x with
  | branch delta =>
    match targets with
    | [] => rfl
    | [target] => rfl
    | _ :: _ :: _ => simp [deltas] at hle
  | switch deltas => rfl
  | none | immediate _ | slot _ | token _ => exact absurd rfl h

end Operand

theorem label_injective : Function.Injective label := by
  intro m n h
  apply Numeral.hex_injective 4
  have hlists := congrArg String.toList h
  rw [label, label, String.toList_append, String.toList_append] at hlists
  exact String.toList_inj.1 (List.append_cancel_left hlists)

theorem mem_label {n : Nat} (h : c ∈ (label n).toList) : c = '_' ∨ c.isAlphanum = true := by
  rw [label, String.toList_append, List.mem_append] at h
  rcases h with h | h
  · have hall : "IL_".toList.all fun c => c = '_' ∨ c.isAlphanum = true := by decide
    simpa using List.all_eq_true.1 hall c h
  · exact .inr (Numeral.isAlphanum_of_mem_hex h)

theorem mem_toList_label (n : Nat) : 'I' ∈ (label n).toList := by
  rw [label, String.toList_append]
  exact List.mem_append_left _ (by decide)

theorem not_mem_signed (n : Int) : 'I' ∉ (Numeral.signed n).toList := by
  intro h
  rcases Numeral.mem_signed h with h | h | h <;> exact absurd h (by decide)

theorem label_ne_signed (m : Nat) (n : Int) : label m ≠ Numeral.signed n := by
  intro h
  exact not_mem_signed n (h ▸ mem_toList_label m)

/-- Labels are shown alike with signed numbers only where there are none. -/
theorem eq_nil_of_labels_eq (h : targets.map label =
    deltas.map fun delta => Numeral.signed delta.toInt) : deltas = [] := by
  cases targets with
  | nil => exact List.map_eq_nil_iff.1 h.symm
  | cons target targets =>
    cases deltas with
    | nil => rfl
    | cons delta deltas => exact absurd (List.cons.inj h).1 (label_ne_signed _ _)

theorem isEntry_label (n : Nat) : Separated.IsEntry (label n) := by
  apply Separated.isEntry_of_mem (mem_toList_label n)
  intro h
  rcases mem_label h with h | h <;> exact absurd h (by decide)

theorem isEntry_signed (n : Int) : Separated.IsEntry (Numeral.signed n) := by
  have hsign : ∃ c, c ∈ (Numeral.signed n).toList := by
    rw [Numeral.signed, String.toList_append]
    split <;> exact ⟨_, List.mem_append_left _ List.mem_cons_self⟩
  rcases hsign with ⟨c, hc⟩
  apply Separated.isEntry_of_mem hc
  intro h
  rcases Numeral.mem_signed h with h | h | h <;> exact absurd h (by decide)

theorem length_shownDestinations (deltas : List Int32) (targets : List Nat) :
    (shownDestinations deltas targets).length = deltas.length := by
  unfold shownDestinations
  split <;> simp_all

theorem isEntry_shownDestinations (deltas : List Int32) (targets : List Nat) :
    ∀ e ∈ shownDestinations deltas targets, Separated.IsEntry e := by
  intro e he
  unfold shownDestinations at he
  split at he
  · rcases List.mem_map.1 he with ⟨target, -, rfl⟩
    exact isEntry_label target
  · rcases List.mem_map.1 he with ⟨delta, -, rfl⟩
    exact isEntry_signed delta.toInt

namespace Operand

theorem textWith_inj {xs ys : List String} (hxs : ∀ e ∈ xs, Separated.IsEntry e)
    (hys : ∀ e ∈ ys, Separated.IsEntry e) (h : x.textWith xs = x.textWith ys) : xs = ys := by
  apply Separated.intercalate_inj hxs hys
  unfold textWith at h
  split at h <;> simpa using h

theorem not_mem_textWith_signed :
    'I' ∉ (x.textWith (deltas.map fun delta => Numeral.signed delta.toInt)).toList := by
  have hentries : 'I' ∉ (", ".intercalate (deltas.map fun delta =>
      Numeral.signed delta.toInt)).toList := by
    apply Separated.not_mem_intercalate (by decide) (by decide)
    simp [not_mem_signed]
  unfold textWith
  split <;> simpa using hentries

end Operand

namespace Instruction

variable {i : Instruction}

theorem lineWith_inj {s t : String} (h : i.lineWith s = i.lineWith t) : s = t := by
  simpa [lineWith] using h

/-- What a listing shows behind the mnemonic of a branch or a jump table with entries. -/
theorem text_eq (htargets : i.targets = i.operand.targets i.next) (h : i.operand.deltas ≠ []) :
    i.operand.text i.targets =
      i.operand.textWith (shownDestinations i.operand.deltas i.targets) := by
  apply Operand.text_eq_textWith h
  rw [htargets]
  apply Operand.length_targets_le

end Instruction

end CilCodec
