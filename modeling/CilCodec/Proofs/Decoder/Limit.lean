import CilCodec.Decoder.Body
import CilCodec.Proofs.Decoder.Step

/-!
# The limit on jump tables

A limit shows only at tables that declare more targets than it allows. Until a decoder comes to the
first of them it does what it does without a limit; there it fails, whether or not the body holds
the table, and does not go on. So what is decoded under a limit has no larger table, and is decoded
alike under every higher limit and under none. The main statement is about decoders with any other
options and any resolver.
-/
namespace CilCodec

/-- The number of targets that the jump table at the offset declares, if its opcode stands there and
the four bytes of the count behind it. -/
def tableCount? (data : List UInt8) (offset : Nat) : Option Nat :=
  if data[offset]? = some 0x45 ∧ offset + 5 ≤ data.length then
    some (LittleEndian.value (data.extract (offset + 1) (offset + 5)))
  else none

def Oversized (data : List UInt8) (limit offset : Nat) : Prop :=
  ∃ count, tableCount? data offset = some count ∧ limit < count

def Item.offset? : Item → Option Nat
  | .ok i => some i.offset
  | .error e => e.offset?

def Within (data : List UInt8) (limit : Nat) (items : List Item) : Prop :=
  ∀ item ∈ items, ∀ offset, Item.offset? item = some offset → ¬ Oversized data limit offset

variable {σ : Type} {data : List UInt8} {limit offset count : Nat} {item : Item}
  {items before behind : List Item}

theorem tableCount?_eq_some_iff : tableCount? data offset = some count ↔
    ∃ bytes entries, bytes.length = 4 ∧ LittleEndian.value bytes = count ∧
      data.drop offset = 0x45 :: (bytes ++ entries) := by
  have hextract : data.extract (offset + 1) (offset + 5) = (data.drop (offset + 1)).take 4 := by
    rw [List.extract_eq_take_drop, Nat.add_sub_add_left]
  have hdrop : data.drop (offset + 1) = (data.drop offset).drop 1 := List.drop_drop.symm
  rw [tableCount?, Option.ite_none_right_eq_some, Option.some.injEq, hextract, hdrop]
  constructor
  · rintro ⟨⟨hbyte, hle⟩, hcount⟩
    refine ⟨_, ((data.drop offset).drop 1).drop 4, ?_, hcount, ?_⟩
    · rw [List.length_take, List.length_drop, List.length_drop]
      omega
    · obtain ⟨hlt, hbyte⟩ := List.getElem?_eq_some_iff.1 hbyte
      rw [List.take_append_drop, ← hbyte, ← hdrop]
      exact List.drop_eq_getElem_cons hlt
  · rintro ⟨bytes, entries, hlength, rfl, hsplit⟩
    have hbyte : data[offset]? = (data.drop offset)[0]? := by
      rw [List.getElem?_drop, Nat.add_zero]
    have hle : (data.drop offset).length = 5 + entries.length := by
      rw [hsplit, List.length_cons, List.length_append]
      omega
    rw [List.length_drop] at hle
    rw [hbyte, hsplit]
    refine ⟨⟨rfl, by omega⟩, ?_⟩
    rw [List.drop_one, List.tail_cons, List.take_left' hlength]

theorem Oversized.anti {higher : Nat} (hle : limit ≤ higher) (h : Oversized data higher offset) :
    Oversized data limit offset := by
  obtain ⟨count, hcount, hlt⟩ := h
  exact ⟨count, hcount, Nat.lt_of_le_of_lt hle hlt⟩

theorem Within.mono {higher : Nat} (hle : limit ≤ higher) (h : Within data limit items) :
    Within data higher items :=
  fun item hitem offset hoffset hover => h item hitem offset hoffset (hover.anti hle)

theorem Within.of_cons (h : Within data limit (item :: items)) : Within data limit items :=
  fun other hother => h other (List.mem_cons_of_mem item hother)

theorem within_or_split (data : List UInt8) (limit : Nat) (items : List Item) :
    Within data limit items ∨ ∃ before item behind offset count, items = before ++ item :: behind ∧
      Within data limit before ∧ Item.offset? item = some offset ∧
      tableCount? data offset = some count ∧ limit < count := by
  induction items with
  | nil => exact .inl (List.forall_mem_nil _)
  | cons item items ih =>
    by_cases hitem : ∃ offset, Item.offset? item = some offset ∧ Oversized data limit offset
    · obtain ⟨offset, hoffset, count, hcount, hlt⟩ := hitem
      exact .inr ⟨[], item, items, offset, count, rfl, List.forall_mem_nil _, hoffset, hcount, hlt⟩
    · have hwithin {items : List Item} (h : Within data limit items) :
          Within data limit (item :: items) :=
        List.forall_mem_cons.2 ⟨fun offset hoffset hover => hitem ⟨offset, hoffset, hover⟩, h⟩
      rcases ih with h | ⟨before, other, behind, offset, count, rfl, hbefore, hfirst⟩
      · exact .inl (hwithin h)
      · exact .inr ⟨item :: before, other, behind, offset, count, rfl, hwithin hbefore, hfirst⟩

namespace Opcode

variable {o : Opcode} {head : List UInt8}

/-- One opcode has a jump table behind it, and that is a single byte. -/
theorem eq_of_spells_of_inlineSwitch (ho : o.Spells head) (hkind : o.kind = .inlineSwitch) :
    head = [0x45] := by
  have all : defined.all fun o => o.kind ≠ .inlineSwitch ∨ o.bytes = [0x45] := by decide +kernel
  have h := List.all_eq_true.1 all o (mem_defined_of_spells ho)
  rw [← bytes_of_spells ho]
  simpa [hkind] using h

theorem spells_switch : (singleByte 0x45).Spells [0x45] ∧ (singleByte 0x45).kind = .inlineSwitch :=
  ⟨.singleByte 0x45 (by decide) (by decide +kernel), by decide +kernel⟩

end Opcode

namespace Instruction

variable {o : Opcode} {c : Cursor data} {config : Config}

theorem oversized_of_exceeds {head after : List UInt8} {max : Nat} (ho : o.Spells head)
    (hrest : c.rest = head ++ after) (h : o.kind.Exceeds (some limit) after count max) :
    Oversized data limit c.position := by
  obtain ⟨hkind, hmax, hlt, bytes, entries, hlength, hvalue, rfl⟩ := h
  obtain rfl := Option.some.inj hmax
  rw [Opcode.eq_of_spells_of_inlineSwitch ho hkind, c.rest_eq] at hrest
  exact ⟨count, tableCount?_eq_some_iff.2 ⟨bytes, entries, hlength, hvalue, hrest⟩, hlt⟩

theorem readBehind_withSwitchLimit {start : Nat} (hnone : config.switchLimit = none)
    (h : ∀ count max, ¬ o.kind.Exceeds (some limit) c.rest count max) :
    readBehind (config.withSwitchLimit limit) start o c = readBehind config start o c := by
  have hcheck : Operand.checkTable o.kind config.switchLimit c = .ok () c := by
    rw [hnone]
    rfl
  rw [readBehind, readBehind, Reader.bind_of_ok hcheck]
  -- Where the count is cut short, the check and the operand's reader fail alike.
  rcases Operand.checkTable_of_not_exceeds h with hpass | ⟨e, hfail, hread⟩
  · exact Reader.bind_of_ok hpass
  · rw [Reader.bind_of_error hread]
    exact Reader.bind_of_error hfail

/-- Where no table over the limit starts, the limit makes no difference. -/
theorem read_withSwitchLimit (hnone : config.switchLimit = none)
    (h : ¬ Oversized data limit c.position) :
    read (config.withSwitchLimit limit) c = read config c := by
  rcases Opcode.read_cases c with ⟨o, head, after, ho, hrest⟩ | ⟨e, d, hread⟩
  · have hwithin (count max : Nat) :
        ¬ o.kind.Exceeds (some limit) (c.skip head.length).rest count max := by
      rw [Cursor.rest_skip_of_rest hrest]
      exact fun hexceeds => h (oversized_of_exceeds ho hrest hexceeds)
    rw [read_of_opcode ho hrest, read_of_opcode ho hrest, EStateM.adaptExcept, EStateM.adaptExcept,
      readBehind_withSwitchLimit hnone hwithin]
  · rw [read, read, Reader.adaptExcept_of_error _ (Reader.bind_of_error hread),
      Reader.adaptExcept_of_error _ (Reader.bind_of_error hread)]

/-- Where a table over the limit starts, reading fails behind its opcode. -/
theorem read_of_oversized (h : tableCount? data c.position = some count) (hlt : limit < count) :
    read (config.withSwitchLimit limit) c =
      .error (.switchTooLarge c.position count limit) (c.skip 1) := by
  obtain ⟨bytes, entries, hlength, hvalue, hdrop⟩ := tableCount?_eq_some_iff.1 h
  rw [← c.rest_eq] at hdrop
  obtain ⟨ho, hkind⟩ := Opcode.spells_switch
  have hrest : c.rest = [0x45] ++ (bytes ++ entries) := hdrop
  have hexceeds : (Opcode.singleByte 0x45).kind.Exceeds (some limit) (c.skip 1).rest count limit :=
    ⟨hkind, rfl, hlt, bytes, entries, hlength, hvalue, Cursor.rest_skip_of_rest hrest⟩
  have hread : readBehind (config.withSwitchLimit limit) c.position (Opcode.singleByte 0x45)
      (c.skip 1) = _ := Reader.bind_of_error (Operand.checkTable_of_exceeds hexceeds)
  rw [read_of_opcode ho hrest]
  exact Reader.adaptExcept_of_error _ hread

theorem Spells.tableCount?_eq {w after : List UInt8} {deltas : List Int32}
    (hw : Spells o (.switch deltas) w) (hrest : c.rest = w ++ after) :
    tableCount? data c.position = some deltas.length := by
  cases hw with
  | @intro head tail ho hx =>
    generalize hkind : o.kind = kind at hx
    cases hx with
    | switch _ hlt =>
      rw [Opcode.eq_of_spells_of_inlineSwitch ho hkind, c.rest_eq, List.append_assoc,
        List.append_assoc] at hrest
      have hlength : (ScalarType.encode .uint32 (UInt32.ofNat deltas.length)).length = 4 :=
        ScalarType.length_encode _ _
      refine tableCount?_eq_some_iff.2 ⟨_, _, hlength, ?_, hrest⟩
      rw [ScalarType.value_encode]
      exact ScalarType.toNat_ofNat_uint32 hlt

end Instruction

namespace Decoder

def limited (d : Decoder σ data) (limit : Nat) : Decoder σ data :=
  d.configure (d.config.withSwitchLimit limit)

/-- What a limit does to the run of a decoder that has none. -/
structure Limits (d : Decoder σ data) (limit : Nat) : Prop where
  offset_isSome : ∀ item ∈ d.drain.items, (Item.offset? item).isSome = true
  /-- Where no table over the limit starts, the runs are the same. -/
  same : Within data limit d.drain.items →
    (d.limited limit).drain = ⟨d.drain.items, d.drain.decoder.limited limit, d.drain.events⟩
  /-- At the first table over the limit the decoder with the limit stops. -/
  stopped : ∀ before item behind offset count, d.drain.items = before ++ item :: behind →
    Within data limit before → Item.offset? item = some offset →
    tableCount? data offset = some count → limit < count →
    let run := (d.limited limit).drain
    run.items = before ++ [.error (.switchTooLarge offset count limit)] ∧
      (∃ start, run.decoder.phase = .failed start false ∧ start.position = offset) ∧
      run.decoder.position = offset + 1 ∧ run.decoder.resync = ⟨false, run.decoder, []⟩
  /-- No larger table is listed. -/
  length_le : ∀ i deltas, .ok i ∈ (d.limited limit).drain.items → i.operand = .switch deltas →
    deltas.length ≤ limit
  /-- A body that is decoded under the limit is decoded alike under a higher one and under none. -/
  collect_eq : ∀ is, collect (d.limited limit).drain.items = .ok is →
    collect d.drain.items = .ok is ∧
      ∀ higher, limit ≤ higher → collect (d.limited higher).drain.items = .ok is

variable {d : Decoder σ data}

theorem resolve_limited (d : Decoder σ data) (limit : Nat) (i : Instruction) :
    (d.limited limit).resolve i =
      ⟨(d.resolve i).result, (d.resolve i).decoder.limited limit, (d.resolve i).events⟩ := by
  have hquery : (d.limited limit).query? i = d.query? i := rfl
  rw [resolve, resolve, hquery]
  cases d.query? i with
  | none => rfl
  | some asked =>
    rcases asked with ⟨resolver, query⟩
    have hstate : (d.limited limit).state = d.state := rfl
    dsimp only
    rw [hstate]
    cases (resolver d.state query).answer <;> rfl

theorem next_limited (hnone : d.config.switchLimit = none)
    (h : d.phase = .positioned → ¬ Oversized data limit d.position) :
    (d.limited limit).next =
      ⟨d.next.result, d.next.decoder.limited limit, d.next.events⟩ := by
  by_cases hphase : d.phase = .positioned
  · by_cases hrest : d.cursor.rest = []
    · rw [next_of_end hphase hrest]
      exact next_of_end (d := d.limited limit) hphase hrest
    · have hsame : Instruction.read (d.config.withSwitchLimit limit) d.cursor =
          Instruction.read d.config d.cursor :=
        Instruction.read_withSwitchLimit hnone (h hphase)
      cases hread : Instruction.read d.config d.cursor with
      | ok i c =>
        have hresolve := resolve_limited { d with cursor := c } limit i
        rw [next_of_read_ok hphase hrest hread,
          next_of_read_ok (d := d.limited limit) hphase hrest (hsame.trans hread)]
        exact congrArg (fun step : Step σ data Instruction =>
          (⟨some (.ok step.result), step.decoder, step.events ++ [.decoded step.result]⟩ :
            Step σ data (Option Item))) hresolve
      | error e c =>
        rw [next_of_read_error hphase hrest hread]
        exact next_of_read_error (d := d.limited limit) hphase hrest (hsame.trans hread)
  · rw [next_of_not_positioned hphase]
    exact next_of_not_positioned (d := d.limited limit) hphase

theorem drain_of_oversized (hphase : d.phase = .positioned)
    (h : tableCount? data d.position = some count) (hlt : limit < count) :
    ∃ events, (d.limited limit).drain = ⟨[.error (.switchTooLarge d.position count limit)],
      { d.limited limit with cursor := d.cursor.skip 1, phase := .failed d.cursor false },
      events⟩ := by
  have hrest : d.cursor.rest ≠ [] := by
    obtain ⟨bytes, entries, -, -, hdrop⟩ := tableCount?_eq_some_iff.1 h
    rw [d.cursor.rest_eq]
    change data.drop d.position ≠ []
    rw [hdrop]
    exact List.cons_ne_nil _ _
  exact drain_of_read_error (d := d.limited limit) hphase hrest
    (Instruction.read_of_oversized h hlt)

theorem offset?_of_next (h : d.next.result = some item) :
    d.phase = .positioned ∧ Item.offset? item = some d.position := by
  rcases d.next_inversion with ⟨-, hnext⟩ | ⟨-, -, hnext⟩ |
    ⟨i, s, events, hphase, -, hnext, hoffset, -⟩ | ⟨e, c, hphase, -, -, hnext, hoffset, -⟩ <;>
    rw [hnext] at h <;> cases h
  · exact ⟨hphase, congrArg some hoffset⟩
  · exact ⟨hphase, hoffset⟩

theorem next_of_drain_nil (h : d.drain.items = []) : d.next.result = none := by
  rcases hnext : d.next with ⟨_ | item, d', events⟩
  · rfl
  · rw [drain_of_some hnext] at h
    cases h

theorem next_of_drain_cons (h : d.drain.items = item :: items) :
    ∃ d' events, d.next = ⟨some item, d', events⟩ ∧ d'.drain.items = items := by
  rcases hnext : d.next with ⟨_ | other, d', events⟩
  · rw [drain_of_none hnext] at h
    cases h
  · rw [drain_of_some hnext] at h
    cases h
    exact ⟨d', events, rfl, rfl⟩

/-- Behind the first items of a run stands a decoder that goes on. Under a limit that none of them
is over, the run comes to the same decoder. -/
theorem exists_drain_behind (limit : Nat) (h : d.drain.items = before ++ behind) :
    ∃ (d' : Decoder σ data) (events : List Event),
      d.drain = d'.drain.after before events ∧ d'.drain.items = behind ∧
      (d.config.switchLimit = none → Within data limit before →
        (d.limited limit).drain = (d'.limited limit).drain.after before events) := by
  -- The items that both runs take drive the induction; the decoders in front of them go along.
  induction before generalizing d with
  | nil => exact ⟨d, [], rfl, h, fun _ _ => rfl⟩
  | cons item before ih =>
    obtain ⟨d', events, hnext, hitems⟩ := next_of_drain_cons h
    obtain ⟨d'', more, hdrain, hbehind, hlimited⟩ := ih hitems
    refine ⟨d'', events ++ more, ?_, hbehind, fun hnone hwithin => ?_⟩
    · rw [drain_of_some hnext, hdrain, Run.after_after]
      rfl
    · have hconfig : d'.config.switchLimit = none := by rw [← hnone, ← config_next d, hnext]
      have hoffset := (offset?_of_next (d := d) (by rw [hnext])).2
      have hlimit : (d.limited limit).next = ⟨some item, d'.limited limit, events⟩ := by
        rw [next_limited hnone fun _ => hwithin item List.mem_cons_self _ hoffset, hnext]
      rw [drain_of_some hlimit, hlimited hconfig hwithin.of_cons, Run.after_after]
      rfl

theorem exists_next_of_mem (h : item ∈ d.drain.items) :
    ∃ (d' d'' : Decoder σ data) (events : List Event), d'.next = ⟨some item, d'', events⟩ := by
  obtain ⟨before, behind, hsplit⟩ := List.append_of_mem h
  obtain ⟨d', -, -, hbehind, -⟩ := exists_drain_behind 0 hsplit
  obtain ⟨d'', events, hnext, -⟩ := next_of_drain_cons hbehind
  exact ⟨d', d'', events, hnext⟩

/-- Behind the last item a limit makes no difference. -/
theorem drain_limited_nil (limit : Nat) (h : d.drain.items = []) :
    (d.limited limit).drain = ⟨[], d.drain.decoder.limited limit, d.drain.events⟩ := by
  have hnil := next_of_drain_nil h
  rcases d.next_inversion with ⟨hphase, -⟩ | ⟨hphase, hrest, hnext⟩ |
    ⟨i, s, events, -, -, hnext, -⟩ | ⟨e, c, -, -, -, hnext, -⟩
  · rw [drain_of_not_positioned hphase]
    exact drain_of_not_positioned (d := d.limited limit) hphase
  · rw [drain_of_none hnext]
    exact drain_of_none (next_of_end (d := d.limited limit) hphase hrest)
  all_goals
    rw [hnext] at hnil
    cases hnil

theorem drain_limited_of_within (hnone : d.config.switchLimit = none)
    (h : Within data limit d.drain.items) :
    (d.limited limit).drain = ⟨d.drain.items, d.drain.decoder.limited limit, d.drain.events⟩ := by
  obtain ⟨d', events, hdrain, hnil, hlimited⟩ :=
    exists_drain_behind limit (List.append_nil d.drain.items).symm
  have hdecoder : d'.drain.decoder = d.drain.decoder := by rw [hdrain, Run.after]
  have hevents : events ++ d'.drain.events = d.drain.events := by rw [hdrain, Run.after]
  rw [hlimited hnone h, drain_limited_nil limit hnil, Run.after, List.append_nil, hdecoder, hevents]

theorem drain_limited_of_oversized (hnone : d.config.switchLimit = none)
    (h : d.drain.items = before ++ item :: behind) (hwithin : Within data limit before)
    (hoffset : Item.offset? item = some offset) (hcount : tableCount? data offset = some count)
    (hlt : limit < count) :
    let run := (d.limited limit).drain
    run.items = before ++ [.error (.switchTooLarge offset count limit)] ∧
      (∃ start, run.decoder.phase = .failed start false ∧ start.position = offset) ∧
      run.decoder.position = offset + 1 ∧ run.decoder.resync = ⟨false, run.decoder, []⟩ := by
  obtain ⟨d', events, -, hbehind, hlimited⟩ := exists_drain_behind limit h
  obtain ⟨d'', more, hnext, -⟩ := next_of_drain_cons hbehind
  obtain ⟨hphase, hposition⟩ := offset?_of_next (d := d') (by rw [hnext])
  obtain rfl : offset = d'.position := Option.some.inj (hoffset.symm.trans hposition)
  obtain ⟨last, hdrain⟩ := drain_of_oversized hphase hcount hlt
  rw [hlimited hnone hwithin, hdrain]
  exact ⟨rfl, ⟨d'.cursor, rfl, rfl⟩, rfl, resync_of_stuck rfl⟩

theorem exists_spells_of_mem {i : Instruction} (h : .ok i ∈ d.drain.items) :
    ∃ (c : Cursor data) (w after : List UInt8),
      c.position = i.offset ∧ Instruction.Spells i.opcode i.operand w ∧ c.rest = w ++ after := by
  obtain ⟨d', d'', events, hstep⟩ := exists_next_of_mem h
  have hphase := (offset?_of_next (d := d') (by rw [hstep])).1
  rcases next_cases d' hphase with ⟨-, hnext⟩ |
    ⟨o, x, w, after, resolution, s, more, hw, hrest, hnext, -⟩ | ⟨e, c, more, -, -, hnext⟩ <;>
    rw [hstep] at hnext <;> cases hnext
  exact ⟨d'.cursor, w, after, rfl, hw, hrest⟩

/-- What is listed under a limit is listed without one, and starts no table over the limit. -/
theorem mem_of_mem_limited {i : Instruction} (hnone : d.config.switchLimit = none)
    (h : .ok i ∈ (d.limited limit).drain.items) :
    .ok i ∈ d.drain.items ∧ ¬ Oversized data limit i.offset := by
  rcases within_or_split data limit d.drain.items with hwithin |
    ⟨before, item, behind, offset, count, hsplit, hwithin, hoffset, hcount, hlt⟩
  · rw [drain_limited_of_within hnone hwithin] at h
    exact ⟨h, hwithin _ h _ rfl⟩
  · rw [(drain_limited_of_oversized hnone hsplit hwithin hoffset hcount hlt).1] at h
    have hbefore : .ok i ∈ before := by simpa using h
    rw [hsplit]
    exact ⟨List.mem_append_left _ hbefore, hwithin _ hbefore _ rfl⟩

theorem within_of_collect {is : List Instruction} (hnone : d.config.switchLimit = none)
    (h : collect (d.limited limit).drain.items = .ok is) : Within data limit d.drain.items := by
  rcases within_or_split data limit d.drain.items with hwithin |
    ⟨before, item, behind, offset, count, hsplit, hwithin, hoffset, hcount, hlt⟩
  · exact hwithin
  · have hitems := eq_map_of_collect h
    rw [(drain_limited_of_oversized hnone hsplit hwithin hoffset hcount hlt).1] at hitems
    have herror : .error (Error.switchTooLarge offset count limit) ∈ is.map Except.ok := by
      rw [← hitems]
      exact List.mem_append_right _ List.mem_cons_self
    rcases List.mem_map.1 herror with ⟨i, -, hi⟩
    cases hi

theorem limits (limit : Nat) (hnone : d.config.switchLimit = none) : d.Limits limit where
  offset_isSome := by
    intro item hitem
    obtain ⟨d', d'', events, hnext⟩ := exists_next_of_mem hitem
    rw [(offset?_of_next (d := d') (by rw [hnext])).2]
    rfl
  same := drain_limited_of_within hnone
  stopped := by
    intro before item behind offset count hsplit hwithin hoffset hcount hlt
    exact drain_limited_of_oversized hnone hsplit hwithin hoffset hcount hlt
  length_le := by
    intro i deltas hi hswitch
    obtain ⟨hmem, hwithin⟩ := mem_of_mem_limited hnone hi
    obtain ⟨c, w, after, hposition, hw, hrest⟩ := exists_spells_of_mem hmem
    rw [hswitch] at hw
    rw [← hposition] at hwithin
    by_contra hlt
    exact hwithin ⟨deltas.length, hw.tableCount?_eq hrest, Nat.not_le.1 hlt⟩
  collect_eq := by
    intro is his
    have hwithin := within_of_collect hnone his
    rw [drain_limited_of_within hnone hwithin] at his
    refine ⟨his, fun higher hle => ?_⟩
    rw [drain_limited_of_within hnone (hwithin.mono hle)]
    exact his

/-- A limit on jump tables stops a decoder at the first table over it and changes nothing before. -/
theorem start_limits (data : List UInt8) (config : Config) (scope : Option (Scope σ)) (s : σ)
    (limit : Nat) :
    ((start data scope s).configure { config with switchLimit := none }).Limits limit :=
  limits limit rfl

/-- A table of two targets that are not there. -/
example : ((start [0x45, 2, 0, 0, 0] (none : Option (Scope Unit)) ()).limited 1).drain.items =
    [.error (.switchTooLarge 0 2 1)] := by
  decide +kernel

end Decoder
end CilCodec
