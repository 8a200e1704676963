import CilCodec.Operand.Encoding
import CilCodec.Proofs.Bytes.Reading

/-!
# Bytes that spell operands

The format of operands, kind by kind, without a reader or a writer: which bytes spell which operand,
and how many bytes an operand has. The main statements say that writing gives exactly the spelling,
that the operands with a spelling are those in the shape and range of the kind, and that bytes of
the right number always spell an operand.
-/
namespace CilCodec
open ScalarType

namespace OperandKind

/-- The bytes `w` spell the operand `x` of a kind. -/
inductive Spells : OperandKind → (x : Operand) → (w : List UInt8) → Prop where
  | none : Spells inlineNone .none []
  | int8 (v : Int8) : Spells shortInlineI (.immediate (.int8 v)) (encode int8 v)
  | shortSlot (v : UInt8) : Spells shortInlineVar (.slot v.toUInt16) (encode uint8 v)
  | shortBranch (v : Int8) : Spells shortInlineBrTarget (.branch v.toInt32) (encode int8 v)
  | slot (v : UInt16) : Spells inlineVar (.slot v) (encode uint16 v)
  | int32 (v : Int32) : Spells inlineI (.immediate (.int32 v)) (encode int32 v)
  | branch (v : Int32) : Spells inlineBrTarget (.branch v) (encode int32 v)
  | token {kind : OperandKind} (v : UInt32) : kind.isToken = true →
      Spells kind (.token ⟨v⟩) (encode uint32 v)
  | float32 (bits : UInt32) : Spells shortInlineR (.immediate (.float32 bits)) (encode float32 bits)
  | int64 (v : Int64) : Spells inlineI8 (.immediate (.int64 v)) (encode int64 v)
  | float64 (bits : UInt64) : Spells inlineR (.immediate (.float64 bits)) (encode float64 bits)
  | switch (deltas : List Int32) : deltas.length < UInt32.size →
      Spells inlineSwitch (.switch deltas)
        (encode uint32 (UInt32.ofNat deltas.length) ++ deltas.flatMap (encode int32))

/-- The operand has the shape that the kind wants, and its value fits. -/
def admits : OperandKind → Operand → Bool
  | inlineNone, .none => true
  | shortInlineI, .immediate (.int8 _) => true
  | shortInlineVar, .slot index => index.toNat ≤ 255
  | shortInlineBrTarget, .branch delta => -128 ≤ delta.toInt ∧ delta.toInt ≤ 127
  | inlineVar, .slot _ => true
  | inlineI, .immediate (.int32 _) => true
  | inlineBrTarget, .branch _ => true
  | inlineMethod, .token _ | inlineField, .token _ | inlineType, .token _ => true
  | inlineString, .token _ | inlineSig, .token _ | inlineTok, .token _ => true
  | shortInlineR, .immediate (.float32 _) => true
  | inlineI8, .immediate (.int64 _) => true
  | inlineR, .immediate (.float64 _) => true
  | inlineSwitch, .switch deltas => deltas.length < UInt32.size
  | _, _ => false

/-- The bytes are as many as an operand of the kind has; a jump table counts its own. -/
inductive Frames : OperandKind → List UInt8 → Prop where
  | fixed {kind : OperandKind} {w : List UInt8} : kind.size? = some w.length → Frames kind w
  | table (count entries : List UInt8) : count.length = 4 →
      entries.length = 4 * LittleEndian.value count → Frames inlineSwitch (count ++ entries)

/-- The bytes end before an operand of the kind does, which needs `needed` of them. -/
inductive Lacks : OperandKind → List UInt8 → (needed : Nat) → Prop where
  | fixed {kind : OperandKind} {w : List UInt8} {needed : Nat} : kind.size? = some needed →
      w.length < needed → Lacks kind w needed
  | count {w : List UInt8} : w.length < 4 → Lacks inlineSwitch w 4
  | table (count entries : List UInt8) : count.length = 4 →
      entries.length < 4 * LittleEndian.value count →
      Lacks inlineSwitch (count ++ entries) (4 + 4 * LittleEndian.value count)

variable {kind : OperandKind} {x : Operand} {w : List UInt8}

theorem form_of_isToken (h : kind.isToken = true) : kind.form = .token := by
  cases kind <;> first | rfl | cases h

theorem spells_of_form_scalar {type : ScalarType} {wrap : type.Value → Operand}
    {unwrap? : Operand → Option type.Value} {law : ∀ x v, unwrap? x = some v ↔ x = wrap v}
    (h : kind.form = .scalar type wrap unwrap? law) (v : type.Value) :
    kind.Spells (wrap v) (type.encode v) := by
  cases kind <;> cases h
  case inlineMethod | inlineField | inlineType | inlineString | inlineSig | inlineTok =>
    exact .token v rfl
  all_goals constructor

theorem encode?_of_spells (h : kind.Spells x w) : kind.encode? x = some w := by
  cases h with
  | shortSlot v =>
    have hv : OperandForm.byteIndex? v.toUInt16 = some v := OperandForm.byteIndex?_eq_some_iff.2 rfl
    simp [encode?, form, OperandForm.shortSlot, Operand.slot?, hv]
  | shortBranch v =>
    have hv : OperandForm.byteDelta? v.toInt32 = some v := OperandForm.byteDelta?_eq_some_iff.2 rfl
    simp [encode?, form, OperandForm.shortBranch, Operand.branch?, hv]
  | token v h => rw [encode?, form_of_isToken h]; rfl
  | switch deltas h =>
    change (some deltas).bind OperandForm.encodeTable? = _
    rw [Option.bind_some, OperandForm.encodeTable?, if_pos h]
  | _ => rfl

theorem spells_of_encode? (h : kind.encode? x = some w) : kind.Spells x w := by
  unfold encode? at h
  split at h
  · next hf =>
    rw [Option.ite_none_right_eq_some] at h
    obtain ⟨rfl, h⟩ := h
    cases h
    cases kind <;> cases hf
    exact .none
  · next type wrap unwrap? law hf =>
    obtain ⟨v, hv, rfl⟩ := Option.map_eq_some_iff.1 h
    rw [(law x v).1 hv]
    exact spells_of_form_scalar hf v
  · next hf =>
    obtain ⟨deltas, hx, hw⟩ := Option.bind_eq_some_iff.1 h
    rw [OperandForm.encodeTable?, Option.ite_none_right_eq_some] at hw
    obtain ⟨hlt, hw⟩ := hw
    cases hw
    rw [Operand.switch?_eq_some_iff.1 hx]
    cases kind <;> cases hf
    exact .switch deltas hlt
  · cases h

/-- What is written for an operand is its spelling. -/
theorem encode?_eq_some_iff : kind.encode? x = some w ↔ kind.Spells x w :=
  ⟨spells_of_encode?, encode?_of_spells⟩

theorem Spells.unique {v : List UInt8} (hw : kind.Spells x w) (hv : kind.Spells x v) : w = v := by
  have h := encode?_of_spells hw
  rw [encode?_of_spells hv] at h
  exact (Option.some.inj h).symm

theorem admits_of_spells (h : kind.Spells x w) : kind.admits x = true := by
  cases h with
  | shortSlot v =>
    have hv := v.toNat_lt
    simp only [admits, UInt8.toNat_toUInt16, decide_eq_true_eq]
    omega
  | shortBranch v =>
    have hlow := v.le_toInt
    have hhigh := v.toInt_lt
    simp only [admits, Int8.toInt_toInt32, decide_eq_true_eq]
    omega
  | token v h => cases kind <;> first | rfl | cases h
  | switch deltas h => simpa [admits] using h
  | _ => rfl

theorem isSome_token?_of_spells (h : kind.Spells x w) : x.token?.isSome = kind.isToken := by
  cases h with
  | token v h => exact h.symm
  | _ => rfl

theorem exists_spells_of_admits (h : kind.admits x = true) : ∃ w, kind.Spells x w := by
  unfold admits at h
  split at h
  case h_1 => exact ⟨_, .none⟩
  case h_2 => exact ⟨_, .int8 _⟩
  case h_3 index =>
    have hb : OperandForm.byteIndex? index = some index.toUInt8 := by
      rw [decide_eq_true_eq] at h
      exact if_pos (by omega)
    rw [OperandForm.byteIndex?_eq_some_iff.1 hb]
    exact ⟨_, .shortSlot _⟩
  case h_4 delta =>
    have hb : OperandForm.byteDelta? delta = some delta.toInt8 := by
      rw [decide_eq_true_eq] at h
      exact if_pos h
    rw [OperandForm.byteDelta?_eq_some_iff.1 hb]
    exact ⟨_, .shortBranch _⟩
  case h_5 => exact ⟨_, .slot _⟩
  case h_6 => exact ⟨_, .int32 _⟩
  case h_7 => exact ⟨_, .branch _⟩
  case h_14 => exact ⟨_, .float32 _⟩
  case h_15 => exact ⟨_, .int64 _⟩
  case h_16 => exact ⟨_, .float64 _⟩
  case h_17 deltas => exact ⟨_, .switch deltas (by simpa using h)⟩
  case h_18 => cases h
  all_goals exact ⟨_, .token _ rfl⟩

theorem exists_spells_iff : (∃ w, kind.Spells x w) ↔ kind.admits x = true :=
  ⟨fun ⟨_, h⟩ => admits_of_spells h, exists_spells_of_admits⟩

theorem frames_of_spells (h : kind.Spells x w) : kind.Frames w := by
  cases h with
  | token v h =>
    apply Frames.fixed
    rw [size?_of_isToken h, length_encode]
    rfl
  | switch deltas h =>
    apply Frames.table
    · rw [length_encode]
      rfl
    · rw [OperandForm.length_entries, value_encode]
      change _ = 4 * (UInt32.ofNat deltas.length).toNat
      rw [toNat_ofNat_uint32 h]
  | _ => exact .fixed rfl

theorem length_of_spells (h : kind.Spells x w) (hkind : kind ≠ .inlineSwitch) :
    kind.size? = some w.length := by
  cases frames_of_spells h with
  | fixed hsize => exact hsize
  | table => exact absurd rfl hkind

theorem length_of_spells_switch {deltas : List Int32} (h : kind.Spells (.switch deltas) w) :
    w.length = 4 + 4 * deltas.length := by
  cases h with
  | switch deltas hlt =>
    rw [List.length_append, OperandForm.length_entries, ScalarType.length_encode]
    rfl

theorem exists_switch_of_spells (h : inlineSwitch.Spells x w) :
    ∃ deltas, x = .switch deltas ∧ w.length = 4 + 4 * deltas.length := by
  cases h with
  | token _ htoken => cases htoken
  | switch deltas hlt => exact ⟨deltas, rfl, length_of_spells_switch (.switch deltas hlt)⟩

theorem exists_spells_of_frames (h : kind.Frames w) : ∃ x, kind.Spells x w := by
  cases h with
  | fixed hsize =>
    rw [← kind.size?_form] at hsize
    cases hf : kind.form with
    | empty =>
      rw [hf, OperandForm.size?, Option.some.injEq] at hsize
      rw [List.length_eq_zero_iff.1 hsize.symm]
      cases kind <;> cases hf
      exact ⟨_, .none⟩
    | scalar type wrap unwrap? law =>
      rw [hf, OperandForm.size?, Option.some.injEq] at hsize
      have hs := spells_of_form_scalar hf (type.decode w)
      rw [type.encode_decode hsize.symm] at hs
      exact ⟨_, hs⟩
    | table | absent => rw [hf] at hsize; cases hsize
  | table count entries hcount hentries =>
    rcases exists_flatMap_encode .int32 _ entries hentries with ⟨deltas, hn, rfl⟩
    have hs := Spells.switch deltas (by rw [hn]; exact value_lt_of_length hcount)
    have hc : encode uint32 (UInt32.ofNat deltas.length) = count := by
      rw [hn]
      exact encode_decode .uint32 hcount
    rw [hc] at hs
    exact ⟨_, hs⟩

/-- The bytes that spell some operand of a kind are those of the right number. -/
theorem exists_spells_iff_frames : (∃ x, kind.Spells x w) ↔ kind.Frames w :=
  ⟨fun ⟨_, h⟩ => frames_of_spells h, exists_spells_of_frames⟩

theorem frames_or_lacks (hkind : kind ≠ .inlinePhi) (bytes : List UInt8) :
    (∃ w after, kind.Frames w ∧ bytes = w ++ after) ∨ ∃ needed, kind.Lacks bytes needed := by
  cases hsize : kind.size? with
  | some n =>
    by_cases hn : bytes.length < n
    · exact .inr ⟨n, .fixed hsize hn⟩
    · refine .inl ⟨bytes.take n, bytes.drop n, .fixed ?_, (List.take_append_drop n bytes).symm⟩
      rw [hsize, List.length_take, Nat.min_eq_left (Nat.not_lt.1 hn)]
  | none =>
    obtain rfl : kind = .inlineSwitch := by cases kind <;> first | rfl | contradiction
    by_cases hcount : bytes.length < 4
    · exact .inr ⟨4, .count hcount⟩
    · have hlen : (bytes.take 4).length = 4 := by rw [List.length_take]; omega
      have hsplit := List.take_append_drop 4 bytes
      by_cases hn : (bytes.drop 4).length < 4 * LittleEndian.value (bytes.take 4)
      · refine .inr ⟨4 + 4 * LittleEndian.value (bytes.take 4), ?_⟩
        have h := Lacks.table (bytes.take 4) (bytes.drop 4) hlen hn
        rwa [hsplit] at h
      · refine .inl ⟨bytes.take 4 ++ (bytes.drop 4).take (4 * LittleEndian.value (bytes.take 4)),
          (bytes.drop 4).drop (4 * LittleEndian.value (bytes.take 4)), .table _ _ hlen ?_, ?_⟩
        · rw [List.length_take, Nat.min_eq_left (Nat.not_lt.1 hn)]
        · rw [List.append_assoc, List.take_append_drop, hsplit]

theorem Lacks.length_lt {needed : Nat} (h : kind.Lacks w needed) : w.length < needed := by
  cases h with
  | fixed _ h | count h => exact h
  | table count entries hcount h =>
    rw [List.length_append]
    omega

end OperandKind
end CilCodec
