import CilCodec.Decoder.Body
import CilCodec.Proofs.Decoder.Step
import CilCodec.Proofs.Instruction.Unambiguous

/-!
# The grammar of bodies

A body is a list of well-formed pieces and a rest that begins with none, and it is so in one way
only. Decoding lists an instruction for each piece and fails at the rest, unless nothing is left
there. The main statement gives both outcomes, and the cause of every failure.
-/
namespace CilCodec

open Instruction

/-- The body is the pieces and then the rest, from whose front no instruction can be taken. -/
structure Splits (data : List UInt8) (pieces : List (List UInt8)) (rest : List UInt8) : Prop where
  flatten_append : pieces.flatten ++ rest = data
  wellFormed : ∀ w ∈ pieces, WellFormed w
  stuck : ∀ w after, rest = w ++ after → ¬ WellFormed w

/-- The instructions are spelled by the pieces, the first of which stands at the offset `start`.
What became of their tokens is left open. -/
inductive Transcribes : (start : Nat) → List (List UInt8) → List Instruction → Prop where
  | nil (start : Nat) : Transcribes start [] []
  | cons {start : Nat} {w : List UInt8} {pieces : List (List UInt8)} {i : Instruction}
      {is : List Instruction} : i.offset = start → i.size = w.length →
      Spells i.opcode i.operand w → i.targets = i.operand.targets i.next →
      Transcribes (start + w.length) pieces is → Transcribes start (w :: pieces) (i :: is)

/-- Behind the last piece, at the offset `start`, nothing is left or the rest is rejected. -/
inductive Ends (start : Nat) : (rest : List UInt8) → (failure : Option Error) → Prop where
  | finished : Ends start [] none
  | failed {rest : List UInt8} {e : Error} : rest ≠ [] → Rejects none start rest e →
      Ends start rest (some e)

/-- The items of instructions and, behind them, of a failure if there is one. -/
def yielded (is : List Instruction) (failure : Option Error) : List Item :=
  is.map .ok ++ failure.toList.map .error

/-- The items of a decoder over the body with nothing set. -/
def items (data : List UInt8) : List Item :=
  (Decoder.start data (none : Option (Scope Unit)) ()).drain.items

variable {σ : Type} {data rest w after : List UInt8} {pieces : List (List UInt8)}
  {is js : List Instruction} {start : Nat} {e : Error}

@[simp] theorem yielded_cons (i : Instruction) (is : List Instruction) (failure : Option Error) :
    yielded (i :: is) failure = .ok i :: yielded is failure := rfl

theorem collect_yielded (is : List Instruction) (failure : Option Error) :
    collect (yielded is failure) = failure.elim (.ok is) .error := by
  induction is with
  | nil => cases failure <;> rfl
  | cons i is ih =>
    rw [yielded_cons, collect_cons_ok, ih]
    cases failure <;> rfl

theorem decode_eq_collect (data : List UInt8) : decode data = collect (items data) := rfl

namespace Splits

theorem cons (hw : WellFormed w) (h : Splits after pieces rest) :
    Splits (w ++ after) (w :: pieces) rest where
  flatten_append := by rw [List.flatten_cons, List.append_assoc, h.flatten_append]
  wellFormed := List.forall_mem_cons.2 ⟨hw, h.wellFormed⟩
  stuck := h.stuck

theorem of_cons (h : Splits data (w :: pieces) rest) :
    WellFormed w ∧ ∃ after, data = w ++ after ∧ Splits after pieces rest := by
  rcases List.forall_mem_cons.1 h.wellFormed with ⟨hw, hpieces⟩
  refine ⟨hw, pieces.flatten ++ rest, ?_, rfl, hpieces, h.stuck⟩
  rw [← h.flatten_append, List.flatten_cons, List.append_assoc]

theorem of_nil (h : Splits data [] rest) : data = rest := h.flatten_append.symm

theorem length_eq (h : Splits data pieces rest) :
    data.length = pieces.flatten.length + rest.length := by
  rw [← h.flatten_append, List.length_append]

theorem of_wellFormed (h : ∀ w ∈ pieces, WellFormed w) : Splits pieces.flatten pieces [] where
  flatten_append := List.append_nil _
  wellFormed := h
  stuck := by
    intro w after hnil hw
    have hpos := hw.length_pos
    rw [(List.append_eq_nil_iff.1 hnil.symm).1] at hpos
    cases hpos

/-- No body splits in two ways. -/
theorem unique {pieces' : List (List UInt8)} {rest' : List UInt8} (h : Splits data pieces rest)
    (h' : Splits data pieces' rest') : pieces' = pieces ∧ rest' = rest := by
  induction pieces generalizing data pieces' with
  | nil =>
    obtain rfl := h.of_nil
    cases pieces' with
    | nil => exact ⟨rfl, h'.of_nil.symm⟩
    | cons v pieces' =>
      rcases h'.of_cons with ⟨hv, after, hdata, -⟩
      exact absurd hv (h.stuck v after hdata)
  | cons w pieces ih =>
    rcases h.of_cons with ⟨hw, after, rfl, htail⟩
    cases pieces' with
    | nil =>
      obtain rfl := h'.of_nil
      exact absurd hw (h'.stuck w after rfl)
    | cons v pieces' =>
      rcases h'.of_cons with ⟨hv, behind, hdata, htail'⟩
      rcases hw.unique hv hdata with ⟨rfl, rfl⟩
      rcases ih htail htail' with ⟨rfl, rfl⟩
      exact ⟨rfl, rfl⟩

end Splits

theorem exists_splits (data : List UInt8) : ∃ pieces rest, Splits data pieces rest := by
  induction hn : data.length using Nat.strongRecOn generalizing data with
  | ind n ih =>
    subst hn
    by_cases h : ∃ w after, data = w ++ after ∧ WellFormed w
    · rcases h with ⟨w, after, rfl, hw⟩
      have hpos := hw.length_pos
      have hlt : after.length < (w ++ after).length := by
        rw [List.length_append]
        omega
      rcases ih _ hlt after rfl with ⟨pieces, rest, hsplits⟩
      exact ⟨w :: pieces, rest, hsplits.cons hw⟩
    · exact ⟨[], data, rfl, List.forall_mem_nil _, fun w after hdata hw => h ⟨w, after, hdata, hw⟩⟩

theorem Transcribes.exists_piece {i : Instruction} (h : Transcribes start pieces is)
    (hi : i ∈ is) : ∃ w ∈ pieces, Spells i.opcode i.operand w ∧ i.size = w.length ∧
      i.targets = i.operand.targets i.next ∧ start ≤ i.offset ∧
      i.next ≤ start + pieces.flatten.length := by
  induction h with
  | nil start => cases hi
  | @cons start w pieces j js hoffset hsize hspells htargets _ ih =>
    rw [List.flatten_cons, List.length_append]
    rcases List.mem_cons.1 hi with rfl | hi
    · have hnext : i.next = start + w.length := by rw [next, hoffset, hsize]
      exact ⟨w, List.mem_cons_self, hspells, hsize, htargets, Nat.le_of_eq hoffset.symm, by omega⟩
    · rcases ih hi with ⟨v, hv, hspells, hsize, htargets, hle, hnext⟩
      exact ⟨v, List.mem_cons_of_mem w hv, hspells, hsize, htargets, by omega, by omega⟩

theorem Transcribes.le_offset {i : Instruction} (h : Transcribes start pieces is) (hi : i ∈ is) :
    start ≤ i.offset ∧ i.offset < i.next := by
  rcases h.exists_piece hi with ⟨w, -, hspells, hsize, -, hle, -⟩
  have hpos := hspells.length_pos
  rw [next]
  omega

/-- The first instruction stands at the start, and the others behind it. -/
theorem Transcribes.first_offset {i : Instruction} (h : Transcribes start pieces (i :: is)) :
    i.offset = start ∧ i.offset < i.next ∧ ∀ j ∈ is, i.next ≤ j.offset ∧ j.offset < j.next := by
  cases h with
  | @cons _ w pieces _ _ hoffset hsize hspells _ htail =>
    have hpos := hspells.length_pos
    have hnext : i.next = start + w.length := by rw [next, hoffset, hsize]
    refine ⟨hoffset, by omega, ?_⟩
    rw [hnext]
    exact fun j hj => htail.le_offset hj

theorem Transcribes.length_pos {i : Instruction} (h : Transcribes start pieces (i :: is)) :
    0 < pieces.flatten.length := by
  rcases h.exists_piece List.mem_cons_self with ⟨w, -, -, -, -, -, hnext⟩
  rcases h.first_offset with ⟨hoffset, hlt, -⟩
  omega

theorem Transcribes.pieces_unique {pieces' : List (List UInt8)} {start' : Nat}
    (h : Transcribes start pieces is) (h' : Transcribes start' pieces' is) : pieces = pieces' := by
  induction h generalizing start' pieces' with
  | nil start =>
    cases h'
    rfl
  | cons _ _ hspells _ _ ih =>
    cases h' with
    | cons _ _ hspells' _ htail => rw [hspells.bytes_unique hspells', ih htail]

/-- Where no token was asked about, the pieces determine the instructions. -/
theorem Transcribes.unique (h : Transcribes start pieces is) (h' : Transcribes start pieces js)
    (hi : ∀ i ∈ is, i.resolution = .notAttempted) (hj : ∀ j ∈ js, j.resolution = .notAttempted) :
    is = js := by
  induction h generalizing js with
  | nil start =>
    cases h'
    rfl
  | @cons start w pieces i is hoffset hsize hspells htargets _ ih =>
    cases h' with
    | @cons _ _ _ j js hoffset' hsize' hspells' htargets' htail =>
      rcases List.forall_mem_cons.1 hi with ⟨hplain, his⟩
      rcases List.forall_mem_cons.1 hj with ⟨hplain', hjs⟩
      rcases hspells.unique hspells' (rfl : w ++ [] = w ++ []) with
        ⟨hopcode, hoperand, -⟩
      have hij : i = j := by
        rcases i with ⟨offset, size, o, x, resolution, targets⟩
        rcases j with ⟨offset', size', p, y, resolution', targets'⟩
        dsimp only [next] at hoffset hsize hopcode hoperand htargets hplain
        dsimp only [next] at hoffset' hsize' htargets' hplain'
        subst hoffset hsize hopcode hoperand htargets hplain
        subst hoffset' hsize' htargets' hplain'
        rfl
      rw [hij, ih htail his hjs]

namespace Decoder

variable {d : Decoder σ data}

theorem next_of_wellFormed (h : d.phase = .positioned) (hconfig : d.config = .standard)
    (hw : WellFormed w) (hrest : d.cursor.rest = w ++ after) :
    ∃ i s events, d.next = ⟨some (.ok i), { d with cursor := d.cursor.skip w.length, state := s },
        events⟩ ∧
      i.offset = d.position ∧ i.size = w.length ∧ Spells i.opcode i.operand w ∧
      i.targets = i.operand.targets i.next ∧ (d.scope = none → i.resolution = .notAttempted) := by
  rcases d with ⟨c, phase, config, scope, s⟩
  change config = .standard at hconfig
  subst hconfig
  rcases next_cases _ h with ⟨hnil, -⟩ |
    ⟨o, x, v, behind, resolution, s, events, hv, hsplit, hnext, hplain⟩ |
    ⟨e, c, events, -, he, -⟩
  · have hpos := hw.length_pos
    rw [hrest, List.append_eq_nil_iff] at hnil
    rw [hnil.1] at hpos
    cases hpos
  · rw [hrest] at hsplit
    obtain ⟨rfl, -⟩ := hw.unique (wellFormed_iff.2 ⟨o, x, hv⟩) hsplit
    exact ⟨_, s, events, hnext, rfl, rfl, hv, rfl, hplain⟩
  · exact absurd hw (he.not_wellFormed hrest)

theorem next_of_rejects (h : d.phase = .positioned) (hconfig : d.config = .standard)
    (hrest : d.cursor.rest ≠ []) (he : Rejects none d.position d.cursor.rest e) :
    ∃ c events, d.next = ⟨some (.error e),
      { d with cursor := c, phase := .failed d.cursor e.isRecoverable }, events⟩ := by
  rcases next_cases d h with ⟨hnil, -⟩ |
    ⟨o, x, v, behind, resolution, s, events, hv, hsplit, -, -⟩ |
    ⟨f, c, events, -, hf, hnext⟩
  · exact absurd hnil hrest
  · exact absurd (wellFormed_iff.2 ⟨o, x, hv⟩) (he.not_wellFormed hsplit)
  · rw [hconfig] at hf
    obtain rfl := he.unique hf
    exact ⟨c, events, hnext⟩

/-- A decoder yields the instructions of the pieces in front of it, and the cause for which the rest
is rejected. -/
theorem drain_items_of_splits (h : d.phase = .positioned) (hconfig : d.config = .standard)
    (hsplits : Splits d.cursor.rest pieces rest) :
    ∃ is failure, d.drain.items = yielded is failure ∧ Transcribes d.position pieces is ∧
      Ends (d.position + pieces.flatten.length) rest failure ∧
      (d.scope = none → ∀ i ∈ is, i.resolution = .notAttempted) := by
  induction pieces generalizing d with
  | nil =>
    obtain rfl := hsplits.of_nil
    by_cases hrest : d.cursor.rest = []
    · rw [drain_of_none (next_of_end h hrest), hrest]
      exact ⟨[], none, rfl, .nil _, .finished, fun _ => List.forall_mem_nil _⟩
    · rcases exists_rejects d.position hsplits.stuck with ⟨e, he⟩
      rcases next_of_rejects h hconfig hrest he with ⟨c, events, hnext⟩
      rw [drain_of_some hnext, drain_of_not_positioned (by simp)]
      exact ⟨[], some e, rfl, .nil _, .failed hrest he, fun _ => List.forall_mem_nil _⟩
  | cons w pieces ih =>
    rcases hsplits.of_cons with ⟨hw, after, hrest, htail⟩
    rcases next_of_wellFormed h hconfig hw hrest with
      ⟨i, s, events, hnext, hoffset, hsize, hspells, htargets, hplain⟩
    rw [← Cursor.rest_skip_of_rest hrest] at htail
    rcases ih (d := { d with cursor := d.cursor.skip w.length, state := s }) h hconfig htail with
      ⟨is, failure, hitems, his, hends, hplain'⟩
    rw [position, Cursor.position_skip, Nat.add_assoc, ← List.length_append, ← List.flatten_cons,
      ← position] at hends
    refine ⟨i :: is, failure, ?_, .cons hoffset hsize hspells htargets his, hends, ?_⟩
    · rw [drain_of_some hnext, Run.after, hitems]
      rfl
    · exact fun hscope => List.forall_mem_cons.2 ⟨hplain hscope, hplain' hscope⟩

end Decoder

theorem items_of_splits (h : Splits data pieces rest) :
    ∃ is failure, items data = yielded is failure ∧ Transcribes 0 pieces is ∧
      Ends pieces.flatten.length rest failure ∧ ∀ i ∈ is, i.resolution = .notAttempted := by
  rcases Decoder.drain_items_of_splits (d := .start data (none : Option (Scope Unit)) ()) rfl rfl h
    with ⟨is, failure, hitems, his, hends, hplain⟩
  rw [Decoder.position, Decoder.start, Cursor.position_start, Nat.zero_add] at hends
  exact ⟨is, failure, hitems, his, hends, hplain rfl⟩

/-- Decoding a body without a rest gives an instruction for each piece, whatever the resolver. -/
theorem decodeWith_of_splits (scope : Option (Scope σ)) (s : σ) (h : Splits data pieces []) :
    ∃ is, (decodeWith data scope s).result = .ok is ∧ Transcribes 0 pieces is ∧
      (scope = none → ∀ i ∈ is, i.resolution = .notAttempted) := by
  rcases Decoder.drain_items_of_splits (d := .start data scope s) rfl rfl h with
    ⟨is, failure, hitems, his, hends, hplain⟩
  cases hends with
  | finished =>
    refine ⟨is, ?_, his, hplain⟩
    rw [decodeWith, hitems, collect_yielded]
    rfl
  | failed hrest => exact absurd rfl hrest

theorem decodeWith_of_rejects (scope : Option (Scope σ)) (s : σ) (h : Splits data pieces rest)
    (hrest : rest ≠ []) (he : Rejects none pieces.flatten.length rest e) :
    (decodeWith data scope s).result = .error e := by
  rcases Decoder.drain_items_of_splits (d := .start data scope s) rfl rfl h with
    ⟨is, failure, hitems, -, hends, -⟩
  rw [← Nat.zero_add pieces.flatten.length] at he
  cases hends with
  | finished => exact absurd rfl hrest
  | failed _ hf =>
    obtain rfl := he.unique hf
    rw [decodeWith, hitems, collect_yielded]
    rfl

/-- What was decoded is spelled by pieces that fill the body. -/
theorem transcribes_of_decodeWith {scope : Option (Scope σ)} {s : σ}
    (h : (decodeWith data scope s).result = .ok is) :
    ∃ pieces, pieces.flatten = data ∧ Transcribes 0 pieces is := by
  rcases exists_splits data with ⟨pieces, rest, hsplits⟩
  by_cases hrest : rest = []
  · subst hrest
    rcases decodeWith_of_splits scope s hsplits with ⟨js, hjs, hpieces, -⟩
    rw [hjs] at h
    cases h
    refine ⟨pieces, ?_, hpieces⟩
    rw [← hsplits.flatten_append, List.append_nil]
  · rcases exists_rejects pieces.flatten.length hsplits.stuck with ⟨e, he⟩
    rw [decodeWith_of_rejects scope s hsplits hrest he] at h
    cases h

namespace Splits

theorem decode_eq_ok_iff (h : Splits data pieces []) :
    decode data = .ok is ↔ Transcribes 0 pieces is ∧ ∀ i ∈ is, i.resolution = .notAttempted := by
  rcases decodeWith_of_splits none () h with ⟨js, hdecode, hjs, hplain⟩
  rw [decode, hdecode]
  constructor
  · rintro ⟨⟩
    exact ⟨hjs, hplain rfl⟩
  · rintro ⟨his, hplain'⟩
    rw [hjs.unique his (hplain rfl) hplain']

theorem decode_eq_error_iff (h : Splits data pieces rest) (hrest : rest ≠ []) :
    decode data = .error e ↔ Rejects none (data.length - rest.length) rest e := by
  have hoffset : data.length - rest.length = pieces.flatten.length := by
    rw [h.length_eq, Nat.add_sub_cancel]
  rcases exists_rejects pieces.flatten.length h.stuck with ⟨f, hf⟩
  rw [decode, decodeWith_of_rejects none () h hrest hf, hoffset]
  constructor
  · rintro ⟨⟩
    exact hf
  · intro he
    rw [hf.unique he]

theorem exists_decode_iff (h : Splits data pieces rest) :
    (∃ is, decode data = .ok is) ↔ rest = [] := by
  constructor
  · rintro ⟨is, hdecode⟩
    by_contra hrest
    rcases exists_rejects (data.length - rest.length) h.stuck with ⟨e, he⟩
    rw [(h.decode_eq_error_iff hrest).2 he] at hdecode
    cases hdecode
  · rintro rfl
    rcases decodeWith_of_splits none () h with ⟨is, hdecode, -⟩
    exact ⟨is, hdecode⟩

end Splits

theorem transcribes_of_decode (h : decode data = .ok is) :
    ∃ pieces, pieces.flatten = data ∧ Transcribes 0 pieces is ∧
      ∀ i ∈ is, i.resolution = .notAttempted := by
  rcases exists_splits data with ⟨pieces, rest, hsplits⟩
  obtain rfl := hsplits.exists_decode_iff.1 ⟨is, h⟩
  refine ⟨pieces, ?_, hsplits.decode_eq_ok_iff.1 h⟩
  rw [← hsplits.flatten_append, List.append_nil]

theorem eq_of_decode_eq {a b : List UInt8} (ha : decode a = .ok is) (hb : decode b = .ok is) :
    a = b := by
  rcases transcribes_of_decode ha with ⟨pieces, rfl, his, -⟩
  rcases transcribes_of_decode hb with ⟨pieces', rfl, his', -⟩
  rw [his.pieces_unique his']

/-- Every body splits in one way. Decoding it lists the instructions of the pieces if there is no
rest, and otherwise fails at the offset of the rest for the cause of its rejection. -/
theorem decode_iff_splits (data : List UInt8) :
    ∃ pieces rest, Splits data pieces rest ∧
      (∀ pieces' rest', Splits data pieces' rest' → pieces' = pieces ∧ rest' = rest) ∧
      ((∃ is, decode data = .ok is) ↔ rest = []) ∧
      (∀ is, decode data = .ok is ↔
        rest = [] ∧ Transcribes 0 pieces is ∧ ∀ i ∈ is, i.resolution = .notAttempted) ∧
      ∀ e, decode data = .error e ↔
        rest ≠ [] ∧ Rejects none (data.length - rest.length) rest e := by
  rcases exists_splits data with ⟨pieces, rest, h⟩
  refine ⟨pieces, rest, h, fun _ _ h' => h.unique h', h.exists_decode_iff, ?_, ?_⟩
  · intro is
    constructor
    · intro hdecode
      obtain rfl := h.exists_decode_iff.1 ⟨is, hdecode⟩
      exact ⟨rfl, h.decode_eq_ok_iff.1 hdecode⟩
    · rintro ⟨rfl, his⟩
      exact h.decode_eq_ok_iff.2 his
  · intro e
    constructor
    · intro hdecode
      have hrest : rest ≠ [] := by
        intro hnil
        rcases h.exists_decode_iff.2 hnil with ⟨is, hok⟩
        rw [hok] at hdecode
        cases hdecode
      exact ⟨hrest, (h.decode_eq_error_iff hrest).1 hdecode⟩
    · rintro ⟨hrest, he⟩
      exact (h.decode_eq_error_iff hrest).2 he

end CilCodec
