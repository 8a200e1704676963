import CilCodec.Proofs.Instruction.Reading

/-!
# Where a failed read stops

A read that fails has taken at least the first byte of the instruction, and nothing past the end. It
can be stepped over only if the opcode is unknown, and then it has taken the bytes of that opcode:
one, or the escape and one more.
-/
namespace CilCodec

variable {data : List UInt8}

namespace Reader

variable {α β : Type}

theorem final_of_ok {r : Reader data α} {c d : Cursor data} {a : α} (h : r c = .ok a d) :
    final r c = d := by
  rw [final, h]

theorem final_of_error {r : Reader data α} {c d : Cursor data} {e : Error} (h : r c = .error e d) :
    final r c = d := by
  rw [final, h]

theorem final_bind_of_ok {r : Reader data α} {f : α → Reader data β} {c d : Cursor data} {a : α}
    (h : r c = .ok a d) : final (r >>= f) c = final (f a) d := by
  rw [final, bind_of_ok h, final]

theorem final_adaptExcept (f : Error → Error) (r : Reader data α) (c : Cursor data) :
    final (EStateM.adaptExcept f r) c = final r c := by
  cases h : r c with
  | ok a d => rw [final_of_ok h, final_of_ok (adaptExcept_of_ok f h)]
  | error e d => rw [final_of_error h, final_of_error (adaptExcept_of_error f h)]

theorem position_final_le_bind {r : Reader data α} {f : α → Reader data β}
    (hf : ∀ a, Forward (f a)) (c : Cursor data) :
    (final r c).position ≤ (final (r >>= f) c).position := by
  cases h : r c with
  | ok a d =>
    rw [final_of_ok h, final_bind_of_ok h]
    exact (hf a d).position_le
  | error e d => exact Nat.le_of_eq (by rw [final_of_error h, final_of_error (bind_of_error h)])

theorem position_lt_final_readOpcode {c : Cursor data} (h : c.rest ≠ []) :
    c.position < (final Opcode.read c).position := by
  obtain ⟨b, after, hrest⟩ := List.exists_cons_of_ne_nil h
  have hle := (forward_readBehind_opcode b (c.skip 1)).position_le
  rw [Cursor.position_skip] at hle
  rw [Opcode.read, final_bind_of_ok (read_byte hrest)]
  omega

/-- Where there is a byte, reading an instruction takes one, also if it fails. -/
theorem position_lt_final_readInstruction (config : Config) {c : Cursor data} (h : c.rest ≠ []) :
    c.position < (final (Instruction.read config) c).position := by
  have hopcode := position_lt_final_readOpcode h
  have hbehind := position_final_le_bind (r := Opcode.read)
    (forward_readBehind config c.position) c
  have hread : final (Instruction.read config) c =
      final (Opcode.read >>= Instruction.readBehind config c.position) c :=
    final_adaptExcept (Error.anchoredAt c.position) _ c
  rw [hread]
  omega

end Reader

namespace Instruction

variable {config : Config} {c d : Cursor data} {limit : Option Nat} {start : Nat}
  {bytes : List UInt8} {e : Error}

/-- Of all causes only an unknown opcode can be stepped over. -/
theorem Rejects.eq_unknownOpcode (h : Rejects limit start bytes e) (hrec : e.isRecoverable = true) :
    ∃ lead value, e = .unknownOpcode start lead value := by
  cases h with
  | unknown b => exact ⟨0, b, rfl⟩
  | unknownEscaped b => exact ⟨Opcode.escape, b, rfl⟩
  | _ => cases hrec

/-- Behind an unknown opcode the cursor has passed the bytes of that opcode. -/
theorem cursor_of_unknownOpcode {lead value : UInt8}
    (h : read config c = .error (.unknownOpcode start lead value) d) :
    lead = 0 ∧ d = c.skip 1 ∨ lead = Opcode.escape ∧ d = c.skip 2 := by
  have hrejects := rejects_of_read h
  have hopcode {f : Error} {d : Cursor data} (hf : Opcode.read c = .error f d) :
      read config c = .error (f.anchoredAt c.position) d :=
    Reader.adaptExcept_of_error _ (Reader.bind_of_error hf)
  generalize hrest : c.rest = bytes at hrejects
  cases hrejects with
  | unknown _ after hb hdef =>
    rw [hopcode (Opcode.read_of_unknown hrest hb hdef)] at h
    injection h with _ hd
    exact .inl ⟨rfl, hd.symm⟩
  | unknownEscaped _ after hdef =>
    rw [hopcode (Opcode.read_of_unknownEscaped hrest hdef)] at h
    injection h with _ hd
    exact .inr ⟨rfl, hd.symm⟩

end Instruction
end CilCodec
