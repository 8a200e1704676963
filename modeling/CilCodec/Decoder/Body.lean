import CilCodec.Decoder.Run

/-!
# Whole bodies

All instructions of a body, or the failure at the first that cannot be read. Several bodies are
decoded one after the other with one resolver between them. The main statements unfold the list of
results item by item.
-/
namespace CilCodec

/-- The instructions of a run without a failure, or its first failure. -/
def collect : List Item → Except Error (List Instruction) := List.mapM id

@[simp] theorem collect_cons_ok (i : Instruction) (items : List Item) :
    collect (.ok i :: items) = (collect items).map (i :: ·) := by
  simp only [collect, List.mapM_cons, id_eq]
  cases List.mapM id items <;> rfl

@[simp] theorem collect_cons_error (e : Error) (items : List Item) :
    collect (.error e :: items) = .error e := by
  simp only [collect, List.mapM_cons, id_eq]
  rfl

theorem eq_map_of_collect {items : List Item} {is : List Instruction}
    (h : collect items = .ok is) :
    items = is.map .ok := by
  induction items generalizing is with
  | nil =>
    cases h
    rfl
  | cons item items ih =>
    cases item with
    | error e =>
      rw [collect_cons_error] at h
      cases h
    | ok i =>
      rw [collect_cons_ok] at h
      cases hrest : collect items with
      | error e =>
        rw [hrest] at h
        cases h
      | ok js =>
        rw [hrest] at h
        cases h
        rw [ih hrest, List.map_cons]

structure Decoding (σ : Type) where
  result : Except Error (List Instruction)
  state : σ
  events : List Event

def decodeWith {σ : Type} (data : List UInt8) (scope : Option (Scope σ)) (s : σ) : Decoding σ :=
  let run := (Decoder.start data scope s).drain
  ⟨collect run.items, run.decoder.state, run.events⟩

def decode (data : List UInt8) : Except Error (List Instruction) :=
  (decodeWith data none ()).result

structure Method where
  body : List UInt8
  context : MethodContext

/-- Decodes bodies in order. The resolver keeps its state from each to the next. -/
def decodeMethods {σ : Type} (resolver : Option (Resolver σ)) :
    List Method → σ → List (Except Error (List Instruction)) × σ
  | [], s => ([], s)
  | m :: rest, s =>
    let first := decodeWith m.body (resolver.map (⟨·, m.context⟩)) s
    let others := decodeMethods resolver rest first.state
    (first.result :: others.1, others.2)

end CilCodec
