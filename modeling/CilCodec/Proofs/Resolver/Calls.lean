import CilCodec.Proofs.Decoder.Grammar
import CilCodec.Proofs.Decoder.Session
import CilCodec.Proofs.Sharing.Asking

/-!
# What a resolver is asked

Decoding a body asks a resolver about the tokens of its instructions, one query for each, in their
order, and each instruction keeps the answer it got. Nothing else depends on the resolver. The main
statement holds for every resolver, whatever it remembers and answers, and says that a decoder that
is told not to resolve tokens asks nothing.
-/
namespace CilCodec

namespace Instruction

def query? (context : MethodContext) (i : Instruction) : Option Query :=
  i.operand.token?.map fun token => ⟨token, i.opcode.kind, context⟩

def unasked (i : Instruction) : Instruction := { i with resolution := .notAttempted }

def answered (answer : Answer) (i : Instruction) : Instruction :=
  { i with resolution := .ofAnswer answer }

def hasToken (i : Instruction) : Bool := i.operand.token?.isSome

@[simp] theorem hasToken_answered (answer : Answer) (i : Instruction) :
    (i.answered answer).hasToken = i.hasToken := rfl

@[simp] theorem query?_answered (context : MethodContext) (answer : Answer) (i : Instruction) :
    (i.answered answer).query? context = i.query? context := rfl

theorem unasked_answered {i : Instruction} (h : i.resolution = .notAttempted) (answer : Answer) :
    (i.answered answer).unasked = i := by
  rw [unasked, ← h]
  rfl

end Instruction

open Instruction

/-- The instructions `js` are the instructions `is` with the answers to the queries about their
tokens, in order. -/
inductive Answered : (answers : List Answer) → (is js : List Instruction) → Prop where
  | nil : Answered [] [] []
  | other {answers : List Answer} {i : Instruction} {is js : List Instruction} :
      i.hasToken = false → Answered answers is js → Answered answers (i :: is) (i :: js)
  | token (answer : Answer) {answers : List Answer} {i : Instruction} {is js : List Instruction} :
      i.hasToken = true → Answered answers is js →
      Answered (answer :: answers) (i :: is) (i.answered answer :: js)

/-- Decoding a body with a resolver yields the instructions `is`, and then the failure if there is
one. -/
structure Asked {σ : Type} (m : Method) (r : Resolver σ) (s : σ) (is : List Instruction)
    (failure : Option Error) : Prop where
  items_eq : (Decoder.start m.body (some ⟨r, m.context⟩) s).drain.items = yielded is failure
  result_eq : (decodeWith m.body (some ⟨r, m.context⟩) s).result = failure.elim (.ok is) .error
  /-- The same instructions and the same failure come without a resolver. -/
  items_unasked : items m.body = yielded (is.map unasked) failure
  decode_eq : decode m.body = failure.elim (.ok (is.map unasked)) .error
  requests_eq : m.requests r s = is.filterMap (query? m.context)
  state_eq : (decodeWith m.body (some ⟨r, m.context⟩) s).state = (r.answers s (m.requests r s)).2
  hasToken_iff : ∀ i ∈ is, i.hasToken = true ↔ i.opcode.kind.isToken = true
  notAttempted : ∀ i ∈ is, i.hasToken = false → i.resolution = .notAttempted
  resolved_iff : ∀ (n : Nat) i, (is.filter hasToken)[n]? = some i → ∀ symbol,
    (i.resolution = .resolved symbol ↔ (r.answers s (m.requests r s)).1[n]? = some (.ok symbol))
  unresolved_iff : ∀ (n : Nat) i, (is.filter hasToken)[n]? = some i →
    (i.resolution = .unresolved ↔ ∃ e, (r.answers s (m.requests r s)).1[n]? = some (.error e))

variable {σ : Type} {data : List UInt8} {answers : List Answer} {is js : List Instruction}

namespace Resolution

theorem ofAnswer_eq_resolved_iff {answer : Answer} {symbol : Symbol} :
    ofAnswer answer = .resolved symbol ↔ answer = .ok symbol := by
  cases answer <;> simp [ofAnswer]

theorem ofAnswer_eq_unresolved_iff {answer : Answer} :
    ofAnswer answer = .unresolved ↔ ∃ e, answer = .error e := by
  cases answer <;> simp [ofAnswer]

end Resolution

theorem Transcribes.hasToken_iff {start : Nat} {pieces : List (List UInt8)}
    (h : Transcribes start pieces is) :
    ∀ i ∈ is, i.hasToken = true ↔ i.opcode.kind.isToken = true := by
  induction h with
  | nil => exact List.forall_mem_nil _
  | @cons _ _ _ i _ _ _ hspells _ _ ih =>
    refine List.forall_mem_cons.2 ⟨?_, ih⟩
    cases hspells with
    | intro _ hoperand => rw [hasToken, OperandKind.isSome_token?_of_spells hoperand]

namespace Answered

theorem map_unasked (h : Answered answers is js) (hplain : ∀ i ∈ is, i.resolution = .notAttempted) :
    js.map unasked = is := by
  induction h with
  | nil => rfl
  | other _ _ ih =>
    rcases List.forall_mem_cons.1 hplain with ⟨hi, his⟩
    rw [List.map_cons, ih his, unasked, ← hi]
  | token answer _ _ ih =>
    rcases List.forall_mem_cons.1 hplain with ⟨hi, his⟩
    rw [List.map_cons, ih his, unasked_answered hi]

theorem notAttempted (h : Answered answers is js)
    (hplain : ∀ i ∈ is, i.resolution = .notAttempted) :
    ∀ j ∈ js, j.hasToken = false → j.resolution = .notAttempted := by
  induction h with
  | nil => exact List.forall_mem_nil _
  | other _ _ ih =>
    rcases List.forall_mem_cons.1 hplain with ⟨hi, his⟩
    exact List.forall_mem_cons.2 ⟨fun _ => hi, ih his⟩
  | token answer htoken _ ih =>
    rcases List.forall_mem_cons.1 hplain with ⟨-, his⟩
    refine List.forall_mem_cons.2 ⟨fun hnone => ?_, ih his⟩
    rw [hasToken_answered, htoken] at hnone
    cases hnone

/-- The instructions with a token are as many as the answers, and each has its own. -/
theorem map_resolution (h : Answered answers is js) :
    (js.filter hasToken).map Instruction.resolution = answers.map Resolution.ofAnswer := by
  induction h with
  | nil => rfl
  | other hnone _ ih => rw [List.filter_cons_of_neg (by simp [hnone]), ih]
  | token answer htoken _ ih =>
    rw [List.filter_cons_of_pos (by simpa using htoken), List.map_cons, List.map_cons, ih]
    rfl

theorem filterMap_query? (h : Answered answers is js) (context : MethodContext) :
    js.filterMap (query? context) = is.filterMap (query? context) := by
  induction h with
  | nil => rfl
  | other _ _ ih | token _ _ _ ih => simp only [List.filterMap_cons, query?_answered, ih]

theorem exists_answer (h : Answered answers is js) {n : Nat} {j : Instruction}
    (hj : (js.filter hasToken)[n]? = some j) :
    ∃ answer, answers[n]? = some answer ∧ j.resolution = .ofAnswer answer := by
  have hn := congrArg (·[n]?) h.map_resolution
  simp only [List.getElem?_map, hj, Option.map_some] at hn
  rcases Option.map_eq_some_iff.1 hn.symm with ⟨answer, hanswer, hresolution⟩
  exact ⟨answer, hanswer, hresolution.symm⟩

end Answered

/-- Asking about the tokens of instructions asks the queries about them, one after the other. -/
theorem Asking.run_about (context : MethodContext) (r : Resolver σ) (is : List Instruction)
    (failure : Option Error) (s : σ) :
    ∃ js, (about context (yielded is failure)).run r s =
        (yielded js failure, (r.answers s (is.filterMap (query? context))).2) ∧
      Answered (r.answers s (is.filterMap (query? context))).1 is js := by
  induction is generalizing s with
  | nil => cases failure <;> exact ⟨[], rfl, .nil⟩
  | cons i is ih =>
    rw [yielded_cons, about]
    cases htoken : i.operand.token? with
    | none =>
      have hquery : i.query? context = none := by rw [query?, htoken]; rfl
      rcases ih s with ⟨js, hrun, hjs⟩
      rw [List.filterMap_cons_none hquery, run_map, hrun]
      exact ⟨i :: js, rfl, .other (by rw [hasToken, htoken]; rfl) hjs⟩
    | some token =>
      have hquery : i.query? context = some ⟨token, i.opcode.kind, context⟩ := by
        rw [query?, htoken]
        rfl
      rcases ih (r s ⟨token, i.opcode.kind, context⟩).state with ⟨js, hrun, hjs⟩
      rw [List.filterMap_cons_some hquery, run, run_map, hrun, Resolver.answers]
      exact ⟨_ :: js, rfl, .token _ (by rw [hasToken, htoken]; rfl) hjs⟩

namespace Method

variable {m : Method} {failure : Option Error}

/-- With a resolver the items are the same but for the answers to the queries about them. -/
theorem drain_of_items (r : Resolver σ) (s : σ) (hitems : items m.body = yielded is failure) :
    ∃ js, Answered (r.answers s (is.filterMap (query? m.context))).1 is js ∧
      (Decoder.start m.body (some ⟨r, m.context⟩) s).drain.items = yielded js failure ∧
      (Decoder.start m.body (some ⟨r, m.context⟩) s).drain.decoder.state =
        (r.answers s (is.filterMap (query? m.context))).2 := by
  have hdrain := Decoder.run_asking_drain_bare
    (d := Decoder.start m.body (some ⟨r, m.context⟩) s) rfl rfl rfl
  change (Asking.about m.context (items m.body)).run r s = _ at hdrain
  rcases Asking.run_about m.context r is failure s with ⟨js, hrun, hjs⟩
  rw [hitems, hrun, Prod.mk.injEq] at hdrain
  exact ⟨js, hjs, hdrain.1.symm, hdrain.2.symm⟩

/-- The requests are the queries about the instructions that decoding without a resolver yields. -/
theorem requests_of_items (r : Resolver σ) (s : σ) (hitems : items m.body = yielded is failure) :
    m.requests r s = is.filterMap (query? m.context) := by
  rcases drain_of_items r.recorded (s, []) hitems with ⟨js, -, -, hstate⟩
  rw [requests, decodeWith, hstate, Resolver.answers_recorded, List.nil_append]

theorem exists_asked (m : Method) (r : Resolver σ) (s : σ) :
    ∃ is failure, Asked m r s is failure := by
  rcases exists_splits m.body with ⟨pieces, rest, hsplits⟩
  rcases items_of_splits hsplits with ⟨is, failure, hitems, his, -, hplain⟩
  rcases drain_of_items r s hitems with ⟨js, hjs, hdrain, hstate⟩
  have hrequests := requests_of_items r s hitems
  rw [← hrequests] at hjs hstate
  have hunasked : items m.body = yielded (js.map unasked) failure := by
    rw [hjs.map_unasked hplain, hitems]
  refine ⟨js, failure, ?_⟩
  constructor
  case items_eq => exact hdrain
  case result_eq => rw [decodeWith, hdrain, collect_yielded]
  case items_unasked => exact hunasked
  case decode_eq => rw [decode_eq_collect, hunasked, collect_yielded]
  case requests_eq => rw [hrequests, hjs.filterMap_query?]
  case state_eq => exact hstate
  case hasToken_iff =>
    intro j hj
    have hmem : j.unasked ∈ is := by
      rw [← hjs.map_unasked hplain]
      exact List.mem_map_of_mem hj
    exact his.hasToken_iff j.unasked hmem
  case notAttempted => exact hjs.notAttempted hplain
  case resolved_iff =>
    intro n j hj symbol
    rcases hjs.exists_answer hj with ⟨answer, hanswer, hresolution⟩
    rw [hresolution, hanswer, Resolution.ofAnswer_eq_resolved_iff, Option.some.injEq]
  case unresolved_iff =>
    intro n j hj
    rcases hjs.exists_answer hj with ⟨answer, hanswer, hresolution⟩
    simp only [hresolution, hanswer, Resolution.ofAnswer_eq_unresolved_iff, Option.some.injEq]

end Method

namespace Decoder

variable {d : Decoder σ data}

theorem next_of_not_resolving (h : d.config.resolvesTokens = false) :
    d.next.decoder.state = d.state ∧
      ∀ i, d.next.result = some (.ok i) → i.resolution = .notAttempted := by
  by_cases hphase : d.phase = .positioned
  · by_cases hrest : d.cursor.rest = []
    · rw [next_of_end hphase hrest]
      exact ⟨rfl, fun _ hi => by cases hi⟩
    · cases hread : Instruction.read d.config d.cursor with
      | error e c =>
        rw [next_of_read_error hphase hrest hread]
        exact ⟨rfl, fun _ hi => by cases hi⟩
      | ok i c =>
        have hquery : ({ d with cursor := c } : Decoder σ data).query? i = none := by
          rw [query?]
          cases d.scope <;> cases i.operand.token? <;> simp [h]
        rw [next_of_read_ok hphase hrest hread, resolve_of_query?_eq_none hquery]
        refine ⟨rfl, ?_⟩
        rintro _ ⟨⟩
        rcases Instruction.spells_of_read hread with ⟨_, _, _, _, -, -, rfl, -⟩
        rfl
  · rw [next_of_not_positioned hphase]
    exact ⟨rfl, fun _ hi => by cases hi⟩

theorem perform_of_not_resolving {command : Command} (h : d.config.resolvesTokens = false)
    (hcommand : ∀ config, command = .configure config → config.resolvesTokens = false) :
    (d.perform command).decoder.config.resolvesTokens = false ∧
      (d.perform command).decoder.state = d.state ∧
      ∀ i, (d.perform command).result = .item (some (.ok i)) → i.resolution = .notAttempted := by
  cases command with
  | next =>
    rcases next_of_not_resolving h with ⟨hstate, hplain⟩
    refine ⟨?_, hstate, fun i hi => hplain i (Outcome.item.inj hi)⟩
    rw [perform, config_next, h]
  | resync =>
    refine ⟨?_, state_resync d, fun _ hi => by cases hi⟩
    rw [perform, config_resync, h]
  | configure config => exact ⟨hcommand config rfl, rfl, fun _ hi => by cases hi⟩

/-- Nor does it ask in a session that does not tell it to resolve tokens. -/
theorem session_of_not_resolving {commands : List Command} (h : d.config.resolvesTokens = false)
    (hcommands : ∀ config, .configure config ∈ commands → config.resolvesTokens = false) :
    (d.behind commands).state = d.state ∧ ∀ step ∈ d.session commands, ∀ i,
      step.result = .item (some (.ok i)) → i.resolution = .notAttempted := by
  induction commands generalizing d with
  | nil => exact ⟨rfl, List.forall_mem_nil _⟩
  | cons command commands ih =>
    rcases perform_of_not_resolving h fun config hcommand =>
      hcommands config (hcommand ▸ List.mem_cons_self) with ⟨hconfig, hstate, hplain⟩
    rcases ih hconfig fun config hmem => hcommands config (List.mem_cons_of_mem _ hmem) with
      ⟨hbehind, hrest⟩
    exact ⟨hbehind.trans hstate, List.forall_mem_cons.2 ⟨hplain, hrest⟩⟩

end Decoder

/-- A resolver is asked about the tokens of the instructions that are decoded and about nothing else,
one query for each in their order. A decoder that does not resolve tokens asks nothing. -/
theorem Method.asked_in_order (m : Method) (r : Resolver σ) (s : σ) :
    (∃ is failure, Asked m r s is failure) ∧
      ∀ (d : Decoder (σ × List Query) m.body) (commands : List Command),
        d.scope = some ⟨r.recorded, m.context⟩ → d.config.resolvesTokens = false →
        (∀ config, .configure config ∈ commands → config.resolvesTokens = false) →
          (d.behind commands).state = d.state ∧ ∀ step ∈ d.session commands, ∀ i,
            step.result = .item (some (.ok i)) → i.resolution = .notAttempted :=
  ⟨m.exists_asked r s, fun _ _ _ hconfig hcommands =>
    Decoder.session_of_not_resolving hconfig hcommands⟩

end CilCodec
