import Mathlib.Data.List.Basic

/-!
# Texts with separators

A text is taken apart again at the characters that do not occur in its parts. The main statements
cut a text in two at such a character and a list of entries at its commas.
-/
namespace CilCodec.Separated

/-- Two texts are cut alike at the first character that is none of `P`. -/
theorem append_inj {P : Char → Prop} {x y s t : List Char} (hx : ∀ c ∈ x, P c)
    (hy : ∀ c ∈ y, P c) (hs : ∀ c ∈ s.head?, ¬ P c) (ht : ∀ c ∈ t.head?, ¬ P c)
    (h : x ++ s = y ++ t) : x = y ∧ s = t := by
  induction x generalizing y with
  | nil =>
    cases y with
    | nil => exact ⟨rfl, h⟩
    | cons d y =>
      rw [List.nil_append] at h
      exact absurd (hy d List.mem_cons_self) (hs d (by rw [h]; rfl))
  | cons c x ih =>
    cases y with
    | nil =>
      rw [List.nil_append] at h
      exact absurd (hx c List.mem_cons_self) (ht c (by rw [← h]; rfl))
    | cons d y =>
      injection h with hcd h
      rcases ih (fun c hc => hx c (List.mem_cons_of_mem _ hc))
        (fun c hc => hy c (List.mem_cons_of_mem _ hc)) h with ⟨rfl, hst⟩
      exact ⟨by rw [hcd], hst⟩

def IsEntry (s : String) : Prop := s ≠ "" ∧ ',' ∉ s.toList

theorem isEntry_of_mem {s : String} {c : Char} (h : c ∈ s.toList) (hcomma : ',' ∉ s.toList) :
    IsEntry s := by
  refine ⟨fun hempty => ?_, hcomma⟩
  rw [hempty] at h
  cases h

/-- What stands behind an entry in front of the others. -/
def behind : List String → List Char
  | [] => []
  | xs => ',' :: ' ' :: (", ".intercalate xs).toList

theorem toList_intercalate_cons (x : String) (xs : List String) :
    (", ".intercalate (x :: xs)).toList = x.toList ++ behind xs := by
  cases xs with
  | nil => simp [behind]
  | cons y ys =>
    rw [String.intercalate_cons_cons, String.toList_append, String.toList_append,
      List.append_assoc]
    rfl

theorem eq_comma_of_mem_head? {xs : List String} {c : Char} (h : c ∈ (behind xs).head?) :
    c = ',' := by
  cases xs with
  | nil => cases h
  | cons x xs => exact (Option.some.inj h).symm

/-- Nothing but commas and spaces is added to the entries. -/
theorem not_mem_intercalate {xs : List String} {c : Char} (hcomma : c ≠ ',') (hspace : c ≠ ' ')
    (h : ∀ x ∈ xs, c ∉ x.toList) : c ∉ (", ".intercalate xs).toList := by
  induction xs with
  | nil => simp
  | cons x xs ih =>
    rcases List.forall_mem_cons.1 h with ⟨hx, hxs⟩
    rw [toList_intercalate_cons]
    cases xs with
    | nil => simpa [behind] using hx
    | cons y ys => simpa [behind, hcomma, hspace, hx] using ih hxs

theorem intercalate_ne_empty {x : String} (h : IsEntry x) (xs : List String) :
    ", ".intercalate (x :: xs) ≠ "" := by
  intro hempty
  have hnil := toList_intercalate_cons x xs
  rw [hempty] at hnil
  exact h.1 (String.toList_eq_nil_iff.1 (List.append_eq_nil_iff.1 hnil.symm).1)

theorem intercalate_inj {xs ys : List String} (hxs : ∀ x ∈ xs, IsEntry x)
    (hys : ∀ y ∈ ys, IsEntry y) (h : ", ".intercalate xs = ", ".intercalate ys) : xs = ys := by
  induction xs generalizing ys with
  | nil =>
    cases ys with
    | nil => rfl
    | cons y ys => exact absurd h.symm (intercalate_ne_empty (hys y List.mem_cons_self) ys)
  | cons x xs ih =>
    cases ys with
    | nil => exact absurd h (intercalate_ne_empty (hxs x List.mem_cons_self) xs)
    | cons y ys =>
      rcases List.forall_mem_cons.1 hxs with ⟨hx, hxs⟩
      rcases List.forall_mem_cons.1 hys with ⟨hy, hys⟩
      have hlists := congrArg String.toList h
      rw [toList_intercalate_cons, toList_intercalate_cons] at hlists
      rcases append_inj (P := (· ≠ ',')) (fun c hc heq => hx.2 (heq ▸ hc))
        (fun c hc heq => hy.2 (heq ▸ hc)) (fun c hc hne => hne (eq_comma_of_mem_head? hc))
        (fun c hc hne => hne (eq_comma_of_mem_head? hc)) hlists with ⟨hfirst, hothers⟩
      rw [String.toList_inj.1 hfirst]
      cases xs <;> cases ys
      case nil.nil => rfl
      case nil.cons | cons.nil => cases hothers
      case cons.cons =>
        injection hothers with _ hothers
        injection hothers with _ hothers
        rw [ih hxs hys (String.toList_inj.1 hothers)]

end CilCodec.Separated
