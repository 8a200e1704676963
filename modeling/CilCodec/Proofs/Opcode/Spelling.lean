import CilCodec.Bytes.LittleEndian
import CilCodec.Opcode.Lookup
import Mathlib.Data.List.Nodup

/-!
# Bytes that spell opcodes

A defined opcode is spelled by one byte other than the escape, or by the escape and one byte more.
The main statements say that the opcodes with a spelling are the rows of the table, that a row has
one spelling, its own bytes, that no two rows share a mnemonic, and that none has a space.
-/
namespace CilCodec.Opcode

inductive Spells : (o : Opcode) → (w : List UInt8) → Prop where
  | singleByte (b : UInt8) : b ≠ escape → (singleByte b).isDefined = true →
      Spells (singleByte b) [b]
  | escaped (b : UInt8) : (escaped b).isDefined = true → Spells (escaped b) [escape, b]

def LoadsFloat (o : Opcode) : Prop := o.mnemonic = "ldc.r4" ∨ o.mnemonic = "ldc.r8"

variable {o : Opcode} {w : List UInt8}

theorem bytes_of_spells (h : o.Spells w) : o.bytes = w := by
  cases h with
  | singleByte b hb hdef => simp [bytes, Opcode.singleByte]
  | escaped b hdef =>
    have hlead : escape ≠ 0 := by decide
    simp [bytes, Opcode.escaped, hlead]

theorem singleByteRows_ascend : (singleByteRows.map (·.value.toNat)).IsChain (· < ·) := by
  decide +kernel

theorem escapedRows_ascend : (escapedRows.map (·.value.toNat)).IsChain (· < ·) := by
  decide +kernel

theorem value_ne_escape_of_mem {r : Row} (h : r ∈ singleByteRows) : r.value ≠ escape := by
  have all : singleByteRows.all fun r => r.value ≠ escape := by decide +kernel
  simpa using List.all_eq_true.1 all r h

/-- The slot of a row's byte holds that row, since no other row has the byte. -/
theorem slotOf_of_mem {rows : List Row} (ascend : (rows.map (·.value.toNat)).IsChain (· < ·))
    (lead : UInt8) {r : Row} (h : r ∈ rows) : slotOf lead rows r.value = r.opcode lead := by
  have hnodup : (rows.map (·.value.toNat)).Nodup :=
    (List.isChain_iff_pairwise.1 ascend).imp Nat.ne_of_lt
  have hfind : (rows.find? (·.value == r.value)).isSome = true := by
    rw [List.find?_isSome]
    exact ⟨r, h, beq_self_eq_true r.value⟩
  rcases Option.isSome_iff_exists.1 hfind with ⟨s, hs⟩
  have hvalue : s.value = r.value := by simpa using List.find?_some hs
  have heq : s = r := by
    apply List.inj_on_of_nodup_map hnodup (List.mem_of_find?_eq_some hs) h
    rw [hvalue]
  rw [slotOf, hs, heq]

theorem mem_defined_of_spells (h : o.Spells w) : o ∈ defined := by
  cases h with
  | singleByte b hb hdef =>
    rcases slotOf_of_isDefined hdef with ⟨r, hr, hslot⟩
    rw [singleByte, hslot]
    exact List.mem_append_left _ (List.mem_map_of_mem hr)
  | escaped b hdef =>
    rcases slotOf_of_isDefined hdef with ⟨r, hr, hslot⟩
    rw [escaped, hslot]
    exact List.mem_append_right _ (List.mem_map_of_mem hr)

theorem spells_of_mem_defined (h : o ∈ defined) : o.Spells o.bytes := by
  have hdef := isDefined_of_mem_defined h
  rcases List.mem_append.1 h with h | h
  · rcases List.mem_map.1 h with ⟨r, hr, rfl⟩
    have hslot : singleByte r.value = r.opcode 0 := slotOf_of_mem singleByteRows_ascend 0 hr
    rw [← hslot] at hdef ⊢
    have hs := Spells.singleByte r.value (value_ne_escape_of_mem hr) hdef
    rwa [bytes_of_spells hs]
  · rcases List.mem_map.1 h with ⟨r, hr, rfl⟩
    have hslot : escaped r.value = r.opcode escape := slotOf_of_mem escapedRows_ascend escape hr
    rw [← hslot] at hdef ⊢
    have hs := Spells.escaped r.value hdef
    rwa [bytes_of_spells hs]

theorem spells_iff : o.Spells w ↔ o ∈ defined ∧ o.bytes = w := by
  constructor
  · intro h
    exact ⟨mem_defined_of_spells h, bytes_of_spells h⟩
  · rintro ⟨h, rfl⟩
    exact spells_of_mem_defined h

theorem kind_ne_inlinePhi (h : o ∈ defined) : o.kind ≠ .inlinePhi := by
  have all : defined.all fun o => o.kind ≠ .inlinePhi := by decide +kernel
  simpa using List.all_eq_true.1 all o h

theorem loadsFloat_of_kind (h : o ∈ defined)
    (hkind : o.kind = .shortInlineR ∨ o.kind = .inlineR) : o.LoadsFloat := by
  have all : defined.all fun o => o.kind = .shortInlineR ∨ o.kind = .inlineR →
      o.mnemonic = "ldc.r4" ∨ o.mnemonic = "ldc.r8" := by decide +kernel
  simpa [LoadsFloat, hkind] using List.all_eq_true.1 all o h

/-- The bytes of a name as one number, which is quicker to compare. -/
def nameCode (name : String) : Nat := LittleEndian.value name.toByteArray.data.toList

def distinct : List Nat → Bool
  | [] => true
  | n :: rest => rest.all (fun m => !Nat.beq n m) && distinct rest

theorem nodup_of_distinct {l : List Nat} (h : distinct l = true) : l.Nodup := by
  induction l with
  | nil => exact List.nodup_nil
  | cons n rest ih =>
    rw [distinct, Bool.and_eq_true, List.all_eq_true] at h
    apply List.nodup_cons.2 ⟨_, ih h.2⟩
    intro hmem
    simpa using h.1 n hmem

theorem eq_of_mnemonic_eq {p : Opcode} (ho : o ∈ defined) (hp : p ∈ defined)
    (h : o.mnemonic = p.mnemonic) : o = p := by
  have hcodes : distinct (defined.map fun o => nameCode o.mnemonic) = true := by decide +kernel
  exact List.inj_on_of_nodup_map (nodup_of_distinct hcodes) ho hp (congrArg nameCode h)

/-- A space is a byte of its own. -/
theorem byte_mem_of_space_mem {s : String} (h : ' ' ∈ s.toList) :
    0x20 ∈ s.toByteArray.data.toList := by
  rw [← String.ofList_toList (s := s), String.toByteArray_ofList, List.utf8Encode]
  simp only [List.data_toByteArray, List.mem_flatMap]
  exact ⟨' ', h, by decide⟩

theorem space_notMem_mnemonic (h : o ∈ defined) : ' ' ∉ o.mnemonic.toList := by
  have all : defined.all fun o => !o.mnemonic.toByteArray.data.toList.elem 0x20 := by
    decide +kernel
  intro hspace
  have hbytes := List.all_eq_true.1 all o h
  rw [List.elem_eq_true_of_mem (byte_mem_of_space_mem hspace)] at hbytes
  cases hbytes

theorem ofMnemonic_of_mem (h : o ∈ defined) : ofMnemonic o.mnemonic = .ok o := by
  have hfind : (ofMnemonic? o.mnemonic).isSome = true := by
    rw [ofMnemonic?, List.find?_isSome]
    exact ⟨o, h, beq_self_eq_true o.mnemonic⟩
  rcases Option.isSome_iff_exists.1 hfind with ⟨p, hp⟩
  have hmem := ofMnemonic?_eq_some hp
  rw [ofMnemonic, hp, eq_of_mnemonic_eq hmem.1 h hmem.2]

theorem ofMnemonic_of_forall_ne {name : String} (h : ∀ o ∈ defined, o.mnemonic ≠ name) :
    ofMnemonic name = .error (.invalidMnemonic name) := by
  have hnone : ofMnemonic? name = none := by
    rw [ofMnemonic?, List.find?_eq_none]
    intro o ho heq
    exact h o ho (by simpa using heq)
  rw [ofMnemonic, hnone]

end CilCodec.Opcode
