import CilCodec.Proofs.Encoder.Run
import CilCodec.Proofs.Operand.Reading

/-!
# What an encoder accepts

An encoder accepts an operand behind an opcode if some bytes are read whole as that operand, and
those are the bytes that it appends behind the opcode's own. Every other operand is refused for one
of four reasons, which name what does not fit. The main statement is about opcodes of every kind,
whether or not the table has them.
-/
namespace CilCodec

inductive Shape where
  | empty | int8 | int32 | int64 | float32 | float64 | slot | branch | token | switch
  deriving DecidableEq

namespace Operand

def shape : Operand → Shape
  | none => .empty
  | immediate (.int8 _) => .int8
  | immediate (.int32 _) => .int32
  | immediate (.int64 _) => .int64
  | immediate (.float32 _) => .float32
  | immediate (.float64 _) => .float64
  | slot _ => .slot
  | branch _ => .branch
  | token _ => .token
  | switch _ => .switch

end Operand

namespace OperandKind

/-- The shape of the operands of a kind; no operand is of the kind that no stream holds. -/
def shape? : OperandKind → Option Shape
  | inlineNone => some .empty
  | shortInlineI => some .int8
  | inlineI => some .int32
  | inlineI8 => some .int64
  | shortInlineR => some .float32
  | inlineR => some .float64
  | shortInlineVar | inlineVar => some .slot
  | shortInlineBrTarget | inlineBrTarget => some .branch
  | inlineMethod | inlineField | inlineType | inlineString | inlineSig | inlineTok => some .token
  | inlineSwitch => some .switch
  | inlinePhi => none

/-- Reading an operand of the kind from the bytes gives `x` and takes all of them. -/
def Reads (kind : OperandKind) (w : List UInt8) (x : Operand) : Prop :=
  ∃ c : Cursor w, Operand.read kind (.start w) = .ok x c ∧ c.position = w.length

variable {kind : OperandKind} {w : List UInt8} {x : Operand}

theorem reads_iff_spells : kind.Reads w x ↔ kind.Spells x w := by
  constructor
  · rintro ⟨c, hread, hposition⟩
    rcases Operand.spells_of_read hread with ⟨v, after, hv, hsplit, rfl⟩
    change w = v ++ after at hsplit
    have hlength : v.length = w.length := by simpa using hposition
    rw [hsplit, List.length_append] at hlength
    obtain rfl : after = [] := List.length_eq_zero_iff.1 (by omega)
    rwa [hsplit, List.append_nil]
  · intro h
    have hrest : (Cursor.start w).rest = w ++ [] := (List.append_nil w).symm
    exact ⟨_, Operand.read_of_spells h hrest, Nat.zero_add w.length⟩

theorem shape?_of_admits (h : kind.admits x = true) : kind.shape? = some x.shape := by
  unfold admits at h
  split at h
  case h_18 => cases h
  all_goals rfl

end OperandKind

namespace Opcode

inductive Unfit (o : Opcode) : Operand → Misfit → Prop where
  | shape {x : Operand} : o.kind.shape? ≠ some x.shape → Unfit o x (.shape x o.mnemonic o.kind)
  | slot {index : UInt16} : o.kind = .shortInlineVar → 255 < index.toNat →
      Unfit o (.slot index) (.slot o.mnemonic index)
  | branch {delta : Int32} : o.kind = .shortInlineBrTarget →
      delta.toInt < -128 ∨ 127 < delta.toInt → Unfit o (.branch delta) (.branch o.mnemonic delta)
  | tableSize {deltas : List Int32} : o.kind = .inlineSwitch → UInt32.size ≤ deltas.length →
      Unfit o (.switch deltas) .tableSize

variable {o : Opcode} {x : Operand} {misfit : Misfit}

theorem misfit_of_shape (h : o.kind.shape? ≠ some x.shape) :
    o.misfit x = .shape x o.mnemonic o.kind := by
  unfold Opcode.misfit
  split
  case h_4 => rfl
  all_goals
    next hkind => rw [hkind] at h; exact absurd rfl h

theorem Unfit.not_admits (h : o.Unfit x misfit) : o.kind.admits x = false := by
  cases h with
  | shape hshape =>
    rw [← Bool.not_eq_true]
    exact fun hadmits => hshape (OperandKind.shape?_of_admits hadmits)
  | slot hkind hlt =>
    rw [hkind]
    exact decide_eq_false (Nat.not_le.2 hlt)
  | branch hkind hrange =>
    rw [hkind]
    exact decide_eq_false (by omega)
  | tableSize hkind hle =>
    rw [hkind]
    exact decide_eq_false (Nat.not_lt.2 hle)

theorem Unfit.misfit_eq (h : o.Unfit x misfit) : o.misfit x = misfit := by
  cases h with
  | shape hshape => exact misfit_of_shape hshape
  | slot hkind _ | branch hkind _ | tableSize hkind _ => simp only [Opcode.misfit, hkind]

/-- An operand of the right shape is refused only for its range. -/
theorem exists_unfit_of_shape (hshape : o.kind.shape? = some x.shape)
    (h : o.kind.admits x = false) : ∃ misfit, o.Unfit x misfit := by
  generalize hkind : o.kind = kind at hshape h
  cases kind
  case shortInlineVar =>
    rcases x with _ | (_ | _ | _ | _ | _) | index | _ | _ | _ <;>
      try (cases hshape; done)
    rw [OperandKind.admits, decide_eq_false_iff_not, Nat.not_le] at h
    exact ⟨_, .slot hkind h⟩
  case shortInlineBrTarget =>
    rcases x with _ | (_ | _ | _ | _ | _) | _ | delta | _ | _ <;>
      try (cases hshape; done)
    rw [OperandKind.admits, decide_eq_false_iff_not] at h
    exact ⟨_, .branch hkind (by omega)⟩
  case inlineSwitch =>
    rcases x with _ | (_ | _ | _ | _ | _) | _ | _ | _ | deltas <;>
      try (cases hshape; done)
    rw [OperandKind.admits, decide_eq_false_iff_not, Nat.not_lt] at h
    exact ⟨_, .tableSize hkind h⟩
  all_goals
    rcases x with _ | (_ | _ | _ | _ | _) | _ | _ | _ | _ <;>
      first | (cases hshape; done) | cases h

theorem exists_unfit_iff : (∃ misfit, o.Unfit x misfit) ↔ o.kind.admits x = false := by
  constructor
  · rintro ⟨misfit, h⟩
    exact h.not_admits
  · intro h
    by_cases hshape : o.kind.shape? = some x.shape
    · exact exists_unfit_of_shape hshape h
    · exact ⟨_, .shape hshape⟩

theorem encode_of_unfit (h : o.Unfit x misfit) :
    o.encode x = .error (.malformed (.misfit misfit)) := by
  rw [encode_eq_error_iff, h.misfit_eq]
  refine ⟨?_, rfl⟩
  rw [Option.eq_none_iff_forall_ne_some]
  intro w hw
  have hadmits := OperandKind.admits_of_spells (OperandKind.spells_of_encode? hw)
  rw [h.not_admits] at hadmits
  cases hadmits

end Opcode

namespace Encoder

/-- What appending an instruction to an encoder does, whatever the encoder holds. -/
structure Decides (i : Instruction) (e : Encoder) : Prop where
  /-- The operands that some bytes are read whole as are accepted, and no others. -/
  accepted_iff : (∃ e', emit (.instruction i) e = .ok () e') ↔
    ∃ w, i.opcode.kind.Reads w i.operand
  unique : ∀ w v, i.opcode.kind.Reads w i.operand → i.opcode.kind.Reads v i.operand → v = w
  length_eq : ∀ w, i.opcode.kind.Reads w i.operand → i.opcode.kind ≠ .inlineSwitch →
    i.opcode.kind.size? = some w.length
  length_table : ∀ w deltas, i.opcode.kind.Reads w i.operand → i.operand = .switch deltas →
    w.length = 4 + 4 * deltas.length
  /-- The bytes that are read as the operand are appended behind those of the opcode. -/
  appended : ∀ w, i.opcode.kind.Reads w i.operand → ∃ e', emit (.instruction i) e = .ok () e' ∧
    e'.toList = e.toList ++
      ((if i.opcode.lead = 0 then [] else [i.opcode.lead]) ++ i.opcode.value :: w) ∧
    e'.position = e.position + (i.opcode.size + w.length)
  /-- Every operand that no bytes are read as is unfit for a reason, and refused for it. -/
  unfit_iff : (∃ misfit, i.opcode.Unfit i.operand misfit) ↔
    ¬ ∃ w, i.opcode.kind.Reads w i.operand
  refused : ∀ misfit, i.opcode.Unfit i.operand misfit →
    emit (.instruction i) e = .error (.malformed (.misfit misfit)) e

variable {i : Instruction} {w : List UInt8} {misfit : Misfit}

theorem emit_of_spells (h : i.opcode.kind.Spells i.operand w) (e : Encoder) :
    emit (.instruction i) e = .ok () ⟨e.bytes ++ (i.opcode.bytes ++ w)⟩ := by
  have hencode : (Emit.instruction i).encode = .ok (i.opcode.bytes ++ w) :=
    Opcode.encode_eq_ok_iff.2 ⟨w, OperandKind.encode?_of_spells h, rfl⟩
  exact emit_of_ok hencode e

theorem emit_of_unfit (h : i.opcode.Unfit i.operand misfit) (e : Encoder) :
    emit (.instruction i) e = .error (.malformed (.misfit misfit)) e := by
  have hencode : (Emit.instruction i).encode = .error (.malformed (.misfit misfit)) :=
    Opcode.encode_of_unfit h
  exact emit_of_error hencode e

/-- An encoder accepts behind an opcode exactly what reading an operand of the opcode's kind can
give. -/
theorem emit_decides (i : Instruction) (e : Encoder) : Decides i e := by
  have hreadable : (∃ w, i.opcode.kind.Reads w i.operand) ↔
      i.opcode.kind.admits i.operand = true := by
    simp only [OperandKind.reads_iff_spells, OperandKind.exists_spells_iff]
  constructor
  case accepted_iff =>
    constructor
    · rintro ⟨e', h⟩
      by_contra hnone
      rw [hreadable, Bool.not_eq_true] at hnone
      rcases Opcode.exists_unfit_iff.2 hnone with ⟨misfit, hunfit⟩
      rw [emit_of_unfit hunfit] at h
      cases h
    · rintro ⟨w, hw⟩
      exact ⟨_, emit_of_spells (OperandKind.reads_iff_spells.1 hw) e⟩
  case unique =>
    intro w v hw hv
    exact (OperandKind.reads_iff_spells.1 hv).unique (OperandKind.reads_iff_spells.1 hw)
  case length_eq =>
    intro w hw hkind
    exact OperandKind.length_of_spells (OperandKind.reads_iff_spells.1 hw) hkind
  case length_table =>
    intro w deltas hw hswitch
    rw [OperandKind.reads_iff_spells, hswitch] at hw
    exact OperandKind.length_of_spells_switch hw
  case appended =>
    intro w hw
    refine ⟨_, emit_of_spells (OperandKind.reads_iff_spells.1 hw) e, ?_, ?_⟩
    · rw [toList_append, Opcode.bytes]
      split <;> rfl
    · rw [position_append, List.length_append, Opcode.length_bytes]
  case unfit_iff => rw [Opcode.exists_unfit_iff, hreadable, Bool.not_eq_true]
  case refused => exact fun misfit hunfit => emit_of_unfit hunfit e

end Encoder
end CilCodec
