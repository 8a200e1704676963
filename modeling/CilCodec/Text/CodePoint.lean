/-!
# Ranges of code points

Membership in an ascending list of closed ranges. The main statement says that the search, which
stops at the first range ending at or after the code point, finds what a look at every range would.
-/
namespace CilCodec.CodePoint

/-- Tells whether `n` lies in one of the ranges, which ascend. -/
def inRanges (n : Nat) : List (Nat × Nat) → Bool
  | [] => false
  | (low, high) :: rest => if n ≤ high then decide (low ≤ n) else inRanges n rest

/-- Tells whether each range starts past the one before it, the first one at `start` or later. -/
def ascend (start : Nat) : List (Nat × Nat) → Bool
  | [] => true
  | (low, high) :: rest => decide (start ≤ low) && decide (low ≤ high) && ascend (high + 1) rest

private theorem start_le_of_ascend {start : Nat} {ranges : List (Nat × Nat)}
    (h : ascend start ranges = true) {r : Nat × Nat} (hr : r ∈ ranges) : start ≤ r.1 := by
  induction ranges generalizing start with
  | nil => simp at hr
  | cons s rest ih =>
    simp only [ascend, Bool.and_eq_true, decide_eq_true_eq] at h
    rcases List.mem_cons.1 hr with rfl | hr
    · exact h.1.1
    · have := ih h.2 hr
      omega

/-- On ascending ranges the search finds a range exactly when there is one. -/
theorem inRanges_iff {n start : Nat} {ranges : List (Nat × Nat)}
    (h : ascend start ranges = true) :
    inRanges n ranges = true ↔ ∃ r ∈ ranges, r.1 ≤ n ∧ n ≤ r.2 := by
  induction ranges generalizing start with
  | nil => simp [inRanges]
  | cons s rest ih =>
    obtain ⟨low, high⟩ := s
    simp only [ascend, Bool.and_eq_true, decide_eq_true_eq] at h
    by_cases hn : n ≤ high
    · simp only [inRanges, hn, if_true, decide_eq_true_eq, List.mem_cons, exists_eq_or_imp,
        and_true]
      refine ⟨Or.inl, ?_⟩
      rintro (hl | ⟨r, hr, hl, -⟩)
      · exact hl
      · have := start_le_of_ascend h.2 hr
        omega
    · simp [inRanges, hn, ih h.2]

end CilCodec.CodePoint
