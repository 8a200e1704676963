import CilCodec.Proofs.Bytes.Reading

/-!
# Scalars one after the other

Values of any types, written behind a buffer and read back from its end. Writing a list of values and
reading values of a list of types are inverse to each other, whatever stands in front and behind. One
read succeeds exactly where all its bytes exist.
-/
namespace CilCodec

structure Scalar where
  type : ScalarType
  value : type.Value

namespace Scalar

def bytes (x : Scalar) : List UInt8 := x.type.encode x.value

def write (buffer : List UInt8) (x : Scalar) : List UInt8 := buffer ++ x.bytes

def writeAll (buffer : List UInt8) (xs : List Scalar) : List UInt8 := xs.foldl write buffer

/-- Reads values of the types one after the other, up to the first that cannot be read. -/
def readAll {ω : Type} (read : (t : ScalarType) → EStateM Error ω t.Value) :
    List ScalarType → EStateM Error ω (List Scalar)
  | [] => return []
  | t :: types => do
    let v ← read t
    let xs ← readAll read types
    return ⟨t, v⟩ :: xs

end Scalar

namespace ScalarType

structure ReadExact (t : ScalarType) (data : List UInt8) (offset : Nat) : Prop where
  ok_iff : (∃ v stop, t.readAt data offset = .ok v stop) ↔ offset + t.width ≤ data.length
  ok : offset + t.width ≤ data.length →
    t.readAt data offset = .ok (t.valueAt data offset) (offset + t.width)
  /-- Past the end nothing is available. -/
  error : data.length < offset + t.width →
    t.readAt data offset = .error (.truncated offset t.width (data.length - offset)) offset

variable {t : ScalarType} {data : List UInt8}

theorem readExact (t : ScalarType) (data : List UInt8) (offset : Nat) : t.ReadExact data offset where
  ok_iff := by
    constructor
    · intro ⟨v, stop, h⟩
      apply Nat.not_lt.1
      intro hlt
      rw [t.readAt_of_lt hlt] at h
      cases h
    · intro h
      exact ⟨_, _, t.readAt_of_le h⟩
  ok h := t.readAt_of_le h
  error h := t.readAt_of_lt h

theorem encode_valueAt {offset : Nat} (h : offset + t.width ≤ data.length) :
    t.encode (t.valueAt data offset) = data.extract offset (offset + t.width) := by
  rw [List.extract_eq_take_drop, Nat.add_sub_cancel_left]
  apply t.encode_decode
  rw [List.length_take, List.length_drop]
  omega

/-- The least significant byte of a value comes first. -/
theorem getElem?_encode (t : ScalarType) (v : t.Value) {i : Nat} (hi : i < t.width) :
    (t.encode v)[i]? = some (UInt8.ofNat (t.toBits v / LittleEndian.range i)) :=
  LittleEndian.getElem?_bytes hi

end ScalarType

theorem extract_append_extract {α : Type} (l : List α) {start mid stop : Nat}
    (hstart : start ≤ mid) (hstop : mid ≤ stop) :
    l.extract start mid ++ l.extract mid stop = l.extract start stop := by
  have hlength : stop - start = (mid - start) + (stop - mid) := by omega
  have hmid : start + (mid - start) = mid := by omega
  rw [List.extract_eq_take_drop, List.extract_eq_take_drop, List.extract_eq_take_drop, hlength,
    List.take_add, List.drop_drop, hmid]

namespace Scalar

variable {ω : Type} {read : (t : ScalarType) → EStateM Error ω t.Value} {t : ScalarType}
  {types : List ScalarType} {xs : List Scalar} {data : List UInt8}

theorem writeAll_eq (buffer : List UInt8) (xs : List Scalar) :
    writeAll buffer xs = buffer ++ xs.flatMap bytes := by
  induction xs generalizing buffer with
  | nil => exact (List.append_nil buffer).symm
  | cons x xs ih =>
    rw [writeAll, List.foldl_cons, ← writeAll, ih, write, List.flatMap_cons, List.append_assoc]

theorem readAll_cons_of_ok {s s' : ω} {v : t.Value} (h : read t s = .ok v s') :
    readAll read (t :: types) s =
      match readAll read types s' with
      | .ok xs s'' => .ok (⟨t, v⟩ :: xs) s''
      | .error e s'' => .error e s'' := by
  change EStateM.bind (read t) _ s = _
  rw [EStateM.bind, h]
  change EStateM.bind (readAll read types) _ s' = _
  rw [EStateM.bind]
  cases readAll read types s' <;> rfl

theorem readAll_cons_of_error {s s' : ω} {e : Error} (h : read t s = .error e s') :
    readAll read (t :: types) s = .error e s' := by
  change EStateM.bind (read t) _ s = _
  rw [EStateM.bind, h]

/-- Values are read back from where they were written. -/
theorem readAll_of_written (before after : List UInt8) (xs : List Scalar) :
    readAll (fun t => t.readAt (before ++ (xs.flatMap bytes ++ after))) (xs.map type)
        before.length = .ok xs (before.length + (xs.flatMap bytes).length) := by
  induction xs generalizing before with
  | nil => rfl
  | cons x xs ih =>
    have hread : x.type.readAt (before ++ (x.bytes ++ (xs.flatMap bytes ++ after))) before.length =
        .ok x.value (before.length + x.type.width) := x.type.readAt_encode _ _ _
    have htail := ih (before ++ x.bytes)
    have hstop : (before ++ x.bytes).length = before.length + x.type.width := by
      rw [List.length_append, bytes, ScalarType.length_encode]
    rw [List.append_assoc, hstop] at htail
    rw [List.flatMap_cons, List.append_assoc, List.map_cons, readAll_cons_of_ok hread, htail,
      List.length_append, bytes, ScalarType.length_encode, Nat.add_assoc]

/-- Values that were read stand where they were read, with nothing in between. -/
theorem written_of_readAll {start stop : Nat}
    (h : readAll (fun t => t.readAt data) types start = .ok xs stop) :
    xs.map type = types ∧ start ≤ stop ∧ xs.flatMap bytes = data.extract start stop := by
  induction types generalizing start xs with
  | nil =>
    cases h
    refine ⟨rfl, Nat.le_refl _, ?_⟩
    rw [List.extract_eq_take_drop, Nat.sub_self]
    rfl
  | cons t types ih =>
    by_cases hle : start + t.width ≤ data.length
    · rw [readAll_cons_of_ok ((t.readExact data start).ok hle)] at h
      cases htail : readAll (fun t => t.readAt data) types (start + t.width) with
      | error e s =>
        rw [htail] at h
        cases h
      | ok ys s =>
        rw [htail] at h
        cases h
        rcases ih htail with ⟨htypes, hstop, hbytes⟩
        refine ⟨congrArg (t :: ·) htypes, by omega, ?_⟩
        rw [List.flatMap_cons, hbytes, bytes, ScalarType.encode_valueAt hle]
        exact extract_append_extract data (by omega) hstop
    · rw [readAll_cons_of_error ((t.readExact data start).error (Nat.not_le.1 hle))] at h
      cases h

end Scalar
end CilCodec
