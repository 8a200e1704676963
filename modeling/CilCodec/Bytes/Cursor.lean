import CilCodec.Bytes.ReadAt

/-!
# Cursors

A cursor is a position in a fixed list of bytes, kept together with the bytes that follow it. Readers
move a cursor forward, and one that fails says where it leaves it. The main statements say when the
basic readers succeed, how far they move, and that a read is the read at the cursor's offset.
-/
namespace CilCodec

structure Cursor (data : List UInt8) where
  position : Nat
  rest : List UInt8
  rest_eq : rest = data.drop position

abbrev Reader (data : List UInt8) : Type → Type := EStateM Error (Cursor data)

variable {data : List UInt8}

namespace Cursor

@[ext] theorem ext {c d : Cursor data} (h : c.position = d.position) : c = d := by
  obtain ⟨p, r, hr⟩ := c
  obtain ⟨q, s, hs⟩ := d
  obtain rfl : p = q := h
  subst hr hs
  rfl

def start (data : List UInt8) : Cursor data := ⟨0, data, rfl⟩

def remaining (c : Cursor data) : Nat := c.rest.length

def atEnd (c : Cursor data) : Bool := c.rest.isEmpty

/-- Tells whether at least `count` bytes follow; looks at no more than that. -/
def holds (c : Cursor data) (count : Nat) : Bool := (c.rest.take count).length == count

def skip (c : Cursor data) (count : Nat) : Cursor data :=
  ⟨c.position + count, c.rest.drop count, by rw [c.rest_eq, List.drop_drop]⟩

/-- The failure of a read that needs more bytes than follow. -/
def shortfall (c : Cursor data) (needed : Nat) : Error :=
  .truncated c.position needed c.remaining

@[simp] theorem position_start : (start data).position = 0 := rfl

@[simp] theorem position_skip (c : Cursor data) (n : Nat) :
    (c.skip n).position = c.position + n := rfl

@[simp] theorem rest_skip (c : Cursor data) (n : Nat) : (c.skip n).rest = c.rest.drop n := rfl

theorem remaining_eq (c : Cursor data) : c.remaining = data.length - c.position := by
  rw [remaining, c.rest_eq, List.length_drop]

@[simp] theorem remaining_skip (c : Cursor data) (n : Nat) :
    (c.skip n).remaining = c.remaining - n := by
  simp [remaining]

@[simp] theorem holds_eq_true_iff (c : Cursor data) (n : Nat) :
    c.holds n = true ↔ n ≤ c.remaining := by
  simp only [holds, remaining, List.length_take, beq_iff_eq]
  omega

@[simp] theorem atEnd_eq_true_iff (c : Cursor data) : c.atEnd = true ↔ c.remaining = 0 := by
  simp [atEnd, remaining]

end Cursor

namespace Reader

def ensure (needed : Nat) : Reader data Unit := fun c =>
  if c.holds needed then .ok () c else .error (c.shortfall needed) c

def advance (step : Nat) : Reader data Unit := fun c =>
  if c.holds step then .ok () (c.skip step) else .error (c.shortfall step) c

/-- The next byte, without moving. -/
def peekByte : Reader data UInt8 := fun c =>
  match c.rest with
  | b :: _ => .ok b c
  | [] => .error (c.shortfall 1) c

def read (t : ScalarType) : Reader data t.Value := fun c =>
  if c.holds t.width then .ok (t.decode (c.rest.take t.width)) (c.skip t.width)
  else .error (c.shortfall t.width) c

/-- Reads without moving, also when the reader fails. -/
def lookahead {α : Type} (r : Reader data α) : Reader data α := fun c =>
  match r c with
  | .ok a _ => .ok a c
  | .error e _ => .error e c

def ofExcept {α : Type} (r : Except Error α) : Reader data α := fun c =>
  match r with
  | .ok a => .ok a c
  | .error e => .error e c

theorem read_of_le (t : ScalarType) {c : Cursor data} (h : t.width ≤ c.remaining) :
    read t c = .ok (t.decode (c.rest.take t.width)) (c.skip t.width) := by
  simp [read, h]

theorem read_of_lt (t : ScalarType) {c : Cursor data} (h : c.remaining < t.width) :
    read t c = .error (c.shortfall t.width) c := by
  simp [read, Nat.not_le.2 h]

/-- Reading at a cursor is reading at its offset. -/
theorem read_eq_readAt (t : ScalarType) (c : Cursor data) :
    (∃ v, read t c = .ok v (c.skip t.width) ∧
        t.readAt data c.position = .ok v (c.position + t.width)) ∨
      ∃ e, read t c = .error e c ∧ t.readAt data c.position = .error e c.position := by
  have hw := t.width_pos
  have hr := c.remaining_eq
  by_cases h : t.width ≤ c.remaining
  · refine .inl ⟨_, read_of_le t h, ?_⟩
    rw [t.readAt_of_le (by omega), c.rest_eq]
  · refine .inr ⟨_, read_of_lt t (Nat.not_le.1 h), ?_⟩
    rw [t.readAt_of_lt (by omega), Cursor.shortfall, hr]

end Reader
end CilCodec
