import CilCodec.Instruction.Reader
import CilCodec.Proofs.Instruction.Spelling
import CilCodec.Proofs.Operand.Reading

/-!
# Reading instructions exactly

What reading an instruction does at every cursor. In front of a spelling the reader takes that
spelling and nothing else; in front of bytes that are rejected it fails for the cause of the
rejection. Since one of the two always holds, each is also necessary for its outcome.
-/
namespace CilCodec

variable {data : List UInt8} {o : Opcode} {x : Operand}

namespace Opcode

theorem read_of_escape {after : List UInt8} {c : Cursor data} (h : c.rest = escape :: after) :
    read c = (Reader.read .uint8 >>= fun b => Reader.ofExcept (ofEscapedByte b)) (c.skip 1) := by
  have hfirst : ofFirstByte escape = .ok .escape := rfl
  rw [read, Reader.bind_of_ok (Reader.read_byte h), readBehind, hfirst]
  rfl

theorem read_of_spells {w after : List UInt8} {c : Cursor data} (ho : o.Spells w)
    (h : c.rest = w ++ after) : read c = .ok o (c.skip w.length) := by
  cases ho with
  | singleByte b hb hdef =>
    have hfirst : ofFirstByte b = .ok (.opcode (Opcode.singleByte b)) := by
      rw [ofFirstByte, if_neg hb, if_pos hdef]
    rw [read, Reader.bind_of_ok (Reader.read_byte h), readBehind, hfirst]
    rfl
  | escaped b hdef =>
    have hsecond : ofEscapedByte b = .ok (Opcode.escaped b) := by rw [ofEscapedByte, if_pos hdef]
    have hrest : (c.skip 1).rest = b :: after := Cursor.rest_skip_of_rest (w := [escape]) h
    rw [read_of_escape h, Reader.bind_of_ok (Reader.read_byte hrest), hsecond, Cursor.skip_skip]
    rfl

theorem read_of_nil {c : Cursor data} (h : c.rest = []) :
    read c = .error (.truncated c.position 1 0) c := by
  have hremaining : c.remaining = 0 := congrArg List.length h
  have hread := Reader.read_of_lt .uint8 (c := c) (by rw [hremaining]; exact Nat.one_pos)
  rw [Cursor.shortfall, hremaining] at hread
  exact Reader.bind_of_error hread

theorem read_of_unknown {b : UInt8} {after : List UInt8} {c : Cursor data}
    (h : c.rest = b :: after) (hb : b ≠ escape) (hdef : (singleByte b).isDefined = false) :
    read c = .error (.unknownOpcode 0 0 b) (c.skip 1) := by
  have hfirst : ofFirstByte b = .error (.unknownOpcode 0 0 b) := by
    rw [ofFirstByte, if_neg hb, if_neg (by simp [hdef])]
  rw [read, Reader.bind_of_ok (Reader.read_byte h), readBehind, hfirst]
  rfl

theorem read_of_escape_nil {c : Cursor data} (h : c.rest = [escape]) :
    read c = .error (.truncated (c.position + 1) 1 0) (c.skip 1) := by
  have hremaining : (c.skip 1).remaining = 0 := by
    rw [Cursor.remaining, Cursor.rest_skip, h]
    rfl
  have hread := Reader.read_of_lt .uint8 (c := c.skip 1) (by rw [hremaining]; exact Nat.one_pos)
  rw [Cursor.shortfall, hremaining, Cursor.position_skip] at hread
  rw [read_of_escape h]
  exact Reader.bind_of_error hread

theorem read_of_unknownEscaped {b : UInt8} {after : List UInt8} {c : Cursor data}
    (h : c.rest = escape :: b :: after) (hdef : (escaped b).isDefined = false) :
    read c = .error (.unknownOpcode 0 escape b) (c.skip 2) := by
  have hsecond : ofEscapedByte b = .error (.unknownOpcode 0 escape b) := by
    rw [ofEscapedByte, if_neg (by simp [hdef])]
  have hrest : (c.skip 1).rest = b :: after := Cursor.rest_skip_of_rest (w := [escape]) h
  rw [read_of_escape h, Reader.bind_of_ok (Reader.read_byte hrest), hsecond, Cursor.skip_skip]
  rfl

/-- A cursor stands in front of a defined opcode or none can be read. -/
theorem read_cases (c : Cursor data) :
    (∃ o head after, Spells o head ∧ c.rest = head ++ after) ∨ ∃ e d, read c = .error e d := by
  rcases Instruction.opcode_or_rejects none c.position c.rest with h | ⟨e, he⟩
  · exact .inl h
  · generalize hrest : c.rest = bytes at he
    cases he with
    | empty => exact .inr ⟨_, _, read_of_nil hrest⟩
    | unknown b after hb hdef => exact .inr ⟨_, _, read_of_unknown hrest hb hdef⟩
    | escape => exact .inr ⟨_, _, read_of_escape_nil hrest⟩
    | unknownEscaped b after hdef => exact .inr ⟨_, _, read_of_unknownEscaped hrest hdef⟩
    | operand ho _ _ | limit ho _ => exact .inl ⟨_, _, _, ho, rfl⟩

end Opcode

namespace Operand

variable {kind : OperandKind} {limit : Option Nat} {c : Cursor data}

theorem checkTable_of_ne (hkind : kind ≠ .inlineSwitch) : checkTable kind limit c = .ok () c := by
  cases limit with
  | none => rfl
  | some max =>
    rw [checkTable, if_neg hkind]
    rfl

theorem checkTable_of_count {count entries : List UInt8} {max : Nat} (hcount : count.length = 4)
    (h : c.rest = count ++ entries) :
    checkTable .inlineSwitch (some max) c =
      if max < LittleEndian.value count then
        .error (.switchTooLarge c.position (LittleEndian.value count) max) c
      else .ok () c := by
  have hc : ScalarType.encode .uint32 (ScalarType.decode .uint32 count) = count :=
    ScalarType.encode_decode .uint32 hcount
  have hread : Reader.read .uint32 c = .ok (ScalarType.decode .uint32 count) (c.skip 4) :=
    Reader.read_encode (t := .uint32) (by rw [hc, h])
  rw [checkTable, if_pos rfl, Reader.bind_of_ok (Reader.lookahead_of_ok hread),
    ScalarType.toNat_decode_uint32 count hcount]
  by_cases hlt : max < LittleEndian.value count
  · rw [if_pos hlt, if_pos hlt]
    rfl
  · rw [if_neg hlt, if_neg hlt]
    rfl

theorem checkTable_of_exceeds {count max : Nat} (h : kind.Exceeds limit c.rest count max) :
    checkTable kind limit c = .error (.switchTooLarge c.position count max) c := by
  rcases h with ⟨rfl, rfl, hlt, head, entries, hhead, rfl, hrest⟩
  rw [checkTable_of_count hhead hrest, if_pos hlt]

/-- The check passes over everything within the limit, or fails as the reader behind it would. -/
theorem checkTable_of_not_exceeds (h : ∀ count max, ¬ kind.Exceeds limit c.rest count max) :
    checkTable kind limit c = .ok () c ∨
      ∃ e, checkTable kind limit c = .error e c ∧ read kind c = .error e c := by
  by_cases hkind : kind = .inlineSwitch
  · subst hkind
    cases limit with
    | none => exact .inl rfl
    | some max =>
      by_cases hshort : c.remaining < 4
      · refine .inr ⟨c.shortfall 4, ?_, Reader.bind_of_error (readTable_of_short hshort)⟩
        rw [checkTable, if_pos rfl]
        exact Reader.bind_of_error (Reader.lookahead_of_error (Reader.read_of_lt .uint32 hshort))
      · have hlen : (c.rest.take 4).length = 4 := by
          rw [Cursor.remaining] at hshort
          rw [List.length_take]
          omega
        have hrest := (List.take_append_drop 4 c.rest).symm
        rw [checkTable_of_count hlen hrest,
          if_neg fun hlt => h _ max ⟨rfl, rfl, hlt, _, _, hlen, rfl, hrest⟩]
        exact .inl rfl
  · exact .inl (checkTable_of_ne hkind)

end Operand

namespace Instruction

variable {config : Config} {c : Cursor data}

def unresolved (config : Config) (start : Nat) (o : Opcode) (x : Operand) (size : Nat) :
    Instruction where
  offset := start
  size := size
  opcode := o
  operand := x
  resolution := .notAttempted
  targets := if config.computesTargets then x.targets (start + size) else []

theorem readBehind_of_ok {start : Nat} {d : Cursor data}
    (hlimit : ∀ count max, ¬ o.kind.Exceeds config.switchLimit c.rest count max)
    (hread : Operand.read o.kind c = .ok x d) (hd : start ≤ d.position) :
    readBehind config start o c = .ok (unresolved config start o x (d.position - start)) d := by
  have hcheck : Operand.checkTable o.kind config.switchLimit c = .ok () c := by
    rcases Operand.checkTable_of_not_exceeds hlimit with h | ⟨e, -, h⟩
    · exact h
    · rw [hread] at h
      cases h
  rw [readBehind, Reader.bind_of_ok hcheck, Reader.bind_of_ok hread, Reader.get_bind, unresolved,
    Nat.add_sub_cancel' hd]
  rfl

theorem readBehind_of_error {start : Nat} {d : Cursor data} {e : Error}
    (hlimit : ∀ count max, ¬ o.kind.Exceeds config.switchLimit c.rest count max)
    (hread : Operand.read o.kind c = .error e d) : readBehind config start o c = .error e d := by
  rcases Operand.checkTable_of_not_exceeds hlimit with h | ⟨f, hcheck, h⟩
  · rw [readBehind, Reader.bind_of_ok h]
    exact Reader.bind_of_error hread
  · rw [hread] at h
    cases h
    exact Reader.bind_of_error hcheck

theorem read_of_opcode {head : List UInt8} {after : List UInt8} (ho : o.Spells head)
    (h : c.rest = head ++ after) :
    read config c =
      EStateM.adaptExcept (Error.anchoredAt c.position) (readBehind config c.position o)
        (c.skip head.length) := by
  rw [read, EStateM.adaptExcept, EStateM.adaptExcept,
    Reader.bind_of_ok (Opcode.read_of_spells ho h)]

theorem read_of_spells {head tail after : List UInt8} (ho : o.Spells head)
    (hx : o.kind.Spells x tail) (h : c.rest = head ++ (tail ++ after))
    (hlimit : ∀ count max, ¬ o.kind.Exceeds config.switchLimit (tail ++ after) count max) :
    read config c =
      .ok (unresolved config c.position o x (head ++ tail).length)
        (c.skip (head ++ tail).length) := by
  have hrest := Cursor.rest_skip_of_rest h
  have hread := Operand.read_of_spells hx hrest
  rw [← hrest] at hlimit
  rw [read_of_opcode ho h, Reader.adaptExcept_of_ok _
    (readBehind_of_ok hlimit hread (by simp only [Cursor.position_skip]; omega)), Cursor.skip_skip,
    Cursor.position_skip, Nat.add_sub_cancel_left, List.length_append]

/-- In front of bytes that are rejected the reader fails for that cause. How many bytes it takes first
depends on nothing but the bytes and the limit on jump tables. -/
theorem exists_read_of_rejects {limit : Option Nat} {start : Nat} {bytes : List UInt8} {e : Error}
    (h : Rejects limit start bytes e) :
    ∃ taken, ∀ {config : Config} {data : List UInt8} {c : Cursor data},
      config.switchLimit = limit → c.rest = bytes →
        read config c = .error (e.anchoredAt c.position) (c.skip taken) := by
  have hopcode {config : Config} {data : List UInt8} {c d : Cursor data} {f : Error}
      (hf : Opcode.read c = .error f d)
      (hanchored : f.anchoredAt c.position = e.anchoredAt c.position) :
      read config c = .error (e.anchoredAt c.position) d := by
    rw [← hanchored]
    exact Reader.adaptExcept_of_error _ (Reader.bind_of_error hf)
  cases h with
  | empty =>
    refine ⟨0, fun _ hrest => ?_⟩
    rw [Cursor.skip_zero]
    exact hopcode (Opcode.read_of_nil hrest) rfl
  | unknown b after hb hdef =>
    exact ⟨1, fun _ hrest => hopcode (Opcode.read_of_unknown hrest hb hdef) rfl⟩
  | escape => exact ⟨1, fun _ hrest => hopcode (Opcode.read_of_escape_nil hrest) rfl⟩
  | unknownEscaped b after hdef =>
    exact ⟨2, fun _ hrest => hopcode (Opcode.read_of_unknownEscaped hrest hdef) rfl⟩
  | @operand o head tail needed ho hlimit hlacks =>
    refine ⟨head.length + if o.kind = .inlineSwitch ∧ 4 ≤ tail.length then 4 else 0,
      fun {config data c} hconfig hrest => ?_⟩
    have htail := Cursor.rest_skip_of_rest hrest
    have hremaining : (c.skip head.length).remaining = tail.length := congrArg List.length htail
    rw [← hconfig, ← htail] at hlimit
    rw [← htail] at hlacks
    have hread : readBehind config c.position o (c.skip head.length) = _ :=
      readBehind_of_error hlimit (Operand.read_of_lacks hlacks)
    rw [read_of_opcode ho hrest, Reader.adaptExcept_of_error _ hread, ← Cursor.skip_skip, hremaining]
    split
    · rfl
    · rw [Cursor.skip_zero]
      rfl
  | @limit o head tail count max ho hexceeds =>
    refine ⟨head.length, fun {config data c} hconfig hrest => ?_⟩
    rw [← hconfig, ← Cursor.rest_skip_of_rest hrest] at hexceeds
    have hread : readBehind config c.position o (c.skip head.length) = _ :=
      Reader.bind_of_error (Operand.checkTable_of_exceeds hexceeds)
    rw [read_of_opcode ho hrest, Reader.adaptExcept_of_error _ hread]
    rfl

theorem read_of_rejects {e : Error} (h : Rejects config.switchLimit c.position c.rest e) :
    ∃ d, read config c = .error e d := by
  rcases exists_read_of_rejects h with ⟨taken, hread⟩
  have herror : read config c = .error (e.anchoredAt c.position) (c.skip taken) := hread rfl rfl
  rw [h.anchoredAt_eq] at herror
  exact ⟨_, herror⟩

/-- Of all options only the limit on jump tables, and of the body only the bytes in front of the
cursor, show in what is read and in what is said when nothing can be read. -/
theorem read_of_rest_eq {config' : Config} {data' : List UInt8} {c' : Cursor data'}
    (hlimit : config'.switchLimit = config.switchLimit) (hrest : c'.rest = c.rest) :
    (∃ o x size, size ≤ c.remaining ∧
        read config c = .ok (unresolved config c.position o x size) (c.skip size) ∧
        read config' c' = .ok (unresolved config' c'.position o x size) (c'.skip size)) ∨
      ∃ (e : Error) (taken : Nat),
        read config c = .error (e.anchoredAt c.position) (c.skip taken) ∧
        read config' c' = .error (e.anchoredAt c'.position) (c'.skip taken) := by
  rcases spells_or_rejects config.switchLimit c.position c.rest with
    ⟨o, x, head, tail, after, ho, hx, hsplit, hfits⟩ | ⟨e, he⟩
  · have hread := read_of_spells ho hx hsplit hfits
    rw [← hlimit] at hfits
    refine .inl ⟨o, x, (head ++ tail).length, ?_, hread,
      read_of_spells ho hx (hrest.trans hsplit) hfits⟩
    rw [← List.append_assoc] at hsplit
    rw [Cursor.remaining_of_rest hsplit]
    omega
  · rcases exists_read_of_rejects he with ⟨taken, hread⟩
    exact .inr ⟨e, taken, hread rfl rfl, hread hlimit hrest⟩

/-- Reading takes a spelling from the front of the bytes or rejects them. -/
theorem read_cases (config : Config) (c : Cursor data) :
    (∃ o x w after, Spells o x w ∧ c.rest = w ++ after ∧
        read config c = .ok (unresolved config c.position o x w.length) (c.skip w.length)) ∨
      ∃ e d, Rejects config.switchLimit c.position c.rest e ∧ read config c = .error e d := by
  rcases spells_or_rejects config.switchLimit c.position c.rest with
    ⟨o, x, head, tail, after, ho, hx, hrest, hlimit⟩ | ⟨e, h⟩
  · refine .inl ⟨o, x, head ++ tail, after, .intro ho hx, ?_, read_of_spells ho hx hrest hlimit⟩
    rw [hrest, List.append_assoc]
  · rcases read_of_rejects h with ⟨d, hd⟩
    exact .inr ⟨e, d, h, hd⟩

theorem spells_of_read {i : Instruction} {d : Cursor data} (h : read config c = .ok i d) :
    ∃ o x w after, Spells o x w ∧ c.rest = w ++ after ∧
      i = unresolved config c.position o x w.length ∧ d = c.skip w.length := by
  rcases read_cases config c with ⟨o, x, w, after, hw, hrest, hread⟩ | ⟨e, d', -, hread⟩
  · rw [hread] at h
    cases h
    exact ⟨o, x, w, after, hw, hrest, rfl, rfl⟩
  · rw [hread] at h
    cases h

theorem rejects_of_read {e : Error} {d : Cursor data} (h : read config c = .error e d) :
    Rejects config.switchLimit c.position c.rest e := by
  rcases read_cases config c with ⟨o, x, w, after, hw, hrest, hread⟩ | ⟨f, d', hf, hread⟩
  · rw [hread] at h
    cases h
  · rw [hread] at h
    cases h
    exact hf

end Instruction
end CilCodec
