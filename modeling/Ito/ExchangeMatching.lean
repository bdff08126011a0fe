import Ito.ExchangeSimulator
import Ito.Library.Greedy
import Ito.Library.Index

/-! What the matching loops compute.

One side of the book, flattened, is a queue of resting orders. A loop serves the
part of the queue that the limit accepts and keeps the two structures in step. -/

namespace Ito.ExchangeSimulator

def size (order : RestingOrder) : Int := order.remainingQuantity.toInt

def trim (order : RestingOrder) (part : Int) : RestingOrder :=
  { order with remainingQuantity := Int64.ofInt (size order - part) }

@[simp] theorem trim_id (order : RestingOrder) (part : Int) :
    (trim order part).venueOrderId = order.venueOrderId := rfl

theorem size_trim {order : RestingOrder} {part : Int} (positive : 0 < part)
    (smaller : part < size order) : size (trim order part) = size order - part := by
  have high := order.remainingQuantity.toInt_lt
  apply Int64.toInt_ofInt_of_le
  · unfold size at *
    omega
  · unfold size at *
    omega

def matchEvent (orderId : Nat) (timestampNs : UInt64) (fill : RestingOrder × Int) : MatchEvent :=
  { takerOrderId := orderId
    makerOrderId := fill.1.venueOrderId
    priceTicks := fill.1.priceTicks
    quantity := Int64.ofInt fill.2
    timestampNs }

structure OrderOk (mine : Side → Prop) (next : Nat) (price : Int64) (order : RestingOrder) :
    Prop where
  priced : order.priceTicks = price
  sided : mine order.side
  positive : 0 < order.priceTicks
  open' : 0 < size order
  known : order.venueOrderId < next

structure LevelOk (mine : Side → Prop) (next : Nat) (price : Int64) (level : BookLevel) :
    Prop where
  nonempty : level ≠ []
  fifo : level.Pairwise fun a b => a.venueOrderId < b.venueOrderId
  each : ∀ order ∈ level, OrderOk mine next price order

variable {before : Int64 → Int64 → Prop}

def Stocked (mine : Side → Prop) (next : Nat) (book : PriceBook before) : Prop :=
  ∀ price level, (price, level) ∈ book.entries → LevelOk mine next price level

variable {mine : Side → Prop} {next : Nat}

theorem stocked_empty : Stocked mine next (SortedMap.empty : PriceBook before) := by
  intro price level member
  cases member

theorem Stocked.mono {book : PriceBook before} {later : Nat} (stocked : Stocked mine next book)
    (after : next ≤ later) : Stocked mine later book := by
  intro price level member
  have ok := stocked price level member
  refine ⟨ok.nonempty, ok.fifo, fun order among => ?_⟩
  have each := ok.each order among
  exact { each with known := each.known.trans_le after }

def Priority (before : Int64 → Int64 → Prop) (a b : RestingOrder) : Prop :=
  before a.priceTicks b.priceTicks ∨
    (a.priceTicks = b.priceTicks ∧ a.venueOrderId < b.venueOrderId)

theorem Stocked.priority {book : PriceBook before} (stocked : Stocked mine next book) :
    book.flat.Pairwise (Priority before) := by
  apply List.pairwise_flatMap.mpr
  constructor
  · intro entry member
    rcases entry with ⟨price, level⟩
    have ok := stocked price level member
    apply ok.fifo.imp_of_mem
    intro a b first second earlier
    exact Or.inr ⟨(ok.each a first).priced.trans (ok.each b second).priced.symm, earlier⟩
  · apply book.sorted.imp_of_mem
    intro entry entry' member member' earlier a first b second
    rcases entry with ⟨price, level⟩
    rcases entry' with ⟨price', level'⟩
    have same := ((stocked price level member).each a first).priced
    have same' := ((stocked price' level' member').each b second).priced
    exact Or.inl (by rw [same, same']; exact earlier)

section Queue

/-- The part of the queue a taker may trade with: up to the first price outside
its limit. -/
def accepted (outside : Int64 → Bool) (book : PriceBook before) : List RestingOrder :=
  book.flat.takeWhile fun order => !outside order.priceTicks

def refused (outside : Int64 → Bool) (book : PriceBook before) : List RestingOrder :=
  book.flat.dropWhile fun order => !outside order.priceTicks

theorem accepted_append_refused (outside : Int64 → Bool) (book : PriceBook before) :
    accepted outside book ++ refused outside book = book.flat :=
  List.takeWhile_append_dropWhile

structure Served (outside : Int64 → Bool) (orderId : Nat) (timestampNs : UInt64)
    (now done : Matching before) : Prop where
  remaining : done.remainingQuantity.toInt =
    Greedy.left size now.remainingQuantity.toInt (accepted outside now.book)
  events : done.matchEvents = now.matchEvents ++
    (Greedy.fills size now.remainingQuantity.toInt (accepted outside now.book)).map
      (matchEvent orderId timestampNs)
  flat : done.book.flat =
    Greedy.rest size trim now.remainingQuantity.toInt (accepted outside now.book) ++
      refused outside now.book

variable {outside : Int64 → Bool} {orderId : Nat} {timestampNs : UInt64}
  {now after done : Matching before} {maker : RestingOrder} {tail : List RestingOrder}

theorem served_covered (covered : now.remainingQuantity.toInt ≤ 0) :
    Served outside orderId timestampNs now now where
  remaining := (Greedy.left_of_nonpos covered).symm
  events := by rw [Greedy.fills_of_nonpos covered, List.map_nil, List.append_nil]
  flat := by rw [Greedy.rest_of_nonpos covered, accepted_append_refused]

theorem served_refused (stopped : accepted outside now.book = []) :
    Served outside orderId timestampNs now now where
  remaining := by rw [stopped]; rfl
  events := by rw [stopped]; simp [Greedy.fills]
  flat := by
    have whole := accepted_append_refused outside now.book
    rw [stopped] at whole ⊢
    exact whole.symm

theorem served_part (flat : now.book.flat = maker :: tail)
    (inside : outside maker.priceTicks = false) (running : 0 < now.remainingQuantity.toInt)
    (larger : now.remainingQuantity.toInt < size maker) (covered : after.remainingQuantity = 0)
    (events : after.matchEvents = now.matchEvents ++
      [matchEvent orderId timestampNs (maker, now.remainingQuantity.toInt)])
    (left : after.book.flat = trim maker now.remainingQuantity.toInt :: tail)
    (served : Served outside orderId timestampNs after done) :
    Served outside orderId timestampNs now done := by
  have zero : after.remainingQuantity.toInt ≤ 0 := by rw [covered, Int64.toInt_zero]
  have front : accepted outside now.book =
      maker :: tail.takeWhile fun order => !outside order.priceTicks := by
    simp [accepted, flat, inside]
  constructor
  · rw [served.remaining, Greedy.left_of_nonpos zero, front,
      (Greedy.part_taken running larger).2, covered, Int64.toInt_zero]
  · rw [served.events, Greedy.fills_of_nonpos zero, front,
      (Greedy.part_taken running larger).1, events]
    simp
  · rw [served.flat, Greedy.rest_of_nonpos zero, accepted_append_refused, left, front,
      Greedy.rest_part running larger]
    simp [refused, flat, inside]

theorem served_all (flat : now.book.flat = maker :: tail)
    (inside : outside maker.priceTicks = false) (running : 0 < now.remainingQuantity.toInt)
    (smaller : size maker ≤ now.remainingQuantity.toInt)
    (remaining : after.remainingQuantity.toInt = now.remainingQuantity.toInt - size maker)
    (events : after.matchEvents = now.matchEvents ++
      [matchEvent orderId timestampNs (maker, size maker)])
    (left : after.book.flat = tail) (served : Served outside orderId timestampNs after done) :
    Served outside orderId timestampNs now done := by
  have front : accepted outside now.book = maker :: accepted outside after.book := by
    simp [accepted, flat, inside, left]
  have back : refused outside now.book = refused outside after.book := by
    simp [refused, flat, inside, left]
  constructor
  · rw [served.remaining, front, (Greedy.all_taken running smaller).2, remaining]
  · rw [served.events, front, (Greedy.all_taken running smaller).1, events, remaining]
    simp
  · rw [served.flat, front, back, Greedy.rest_all running smaller, remaining]

/-- What is left of the queue is at prices that were there before. -/
theorem Served.prices (served : Served outside orderId timestampNs now done)
    {order : RestingOrder} (member : order ∈ done.book.flat) :
    ∃ old ∈ now.book.flat, old.priceTicks = order.priceTicks := by
  rw [served.flat, List.mem_append] at member
  rw [← accepted_append_refused outside now.book]
  rcases member with part | rest
  · rcases Greedy.mem_rest part with old | ⟨old, among, part, _, _, rfl⟩
    · exact ⟨order, List.mem_append_left _ old, rfl⟩
    · exact ⟨old, List.mem_append_left _ among, rfl⟩
  · exact ⟨order, List.mem_append_right _ rest, rfl⟩

theorem accepted_eq_filter {book : PriceBook before} (stocked : Stocked mine next book)
    (closed : ∀ a b, before a b → outside a = true → outside b = true) :
    accepted outside book = book.flat.filter (fun order => !outside order.priceTicks) ∧
      refused outside book = book.flat.filter fun order => outside order.priceTicks := by
  have cut := Greedy.cut_sorted (p := fun order : RestingOrder => !outside order.priceTicks)
    (R := Priority before) ?_ stocked.priority
  · simpa [accepted, refused] using cut
  · intro a b order stopped
    rw [Bool.not_eq_false'] at stopped ⊢
    rcases order with better | ⟨same, _⟩
    · exact closed _ _ better stopped
    · rwa [← same]

theorem Served.outside_of_left (served : Served outside orderId timestampNs now done)
    (stocked : Stocked mine next now.book)
    (closed : ∀ a b, before a b → outside a = true → outside b = true)
    (remains : 0 < done.remainingQuantity.toInt) :
    ∀ order ∈ done.book.flat, outside order.priceTicks = true := by
  intro order member
  rw [served.remaining] at remains
  rw [served.flat, Greedy.rest_of_left remains, List.nil_append,
    (accepted_eq_filter stocked closed).2] at member
  simpa using (List.mem_filter.mp member).2

end Queue

section Loop

variable [DecidableRel before] [IsStrictTotalOrder Int64 before]

theorem stocked_storeLevel {book : PriceBook before} {price : Int64} {level : BookLevel}
    (stocked : Stocked mine next book) (ok : level ≠ [] → LevelOk mine next price level) :
    Stocked mine next (storeLevel book price level) := by
  intro price' level' member
  rw [storeLevel] at member
  split at member
  case isTrue empty =>
    rw [SortedMap.mem_erase] at member
    exact stocked price' level' member.2
  case isFalse filled =>
    rw [SortedMap.mem_set] at member
    rcases member with ⟨rfl, rfl⟩ | ⟨_, old⟩
    · exact ok (by simpa using filled)
    · exact stocked price' level' old

theorem flat_storeLevel_first {book : PriceBook before} {price : Int64} {old level : BookLevel}
    {later : List (Int64 × BookLevel)} (first : book.entries = (price, old) :: later) :
    (storeLevel book price level).flat = level ++ later.flatMap Prod.snd := by
  rw [storeLevel, SortedMap.flat]
  split
  case isTrue empty =>
    rw [SortedMap.entries_erase_first book first, List.isEmpty_iff.mp empty, List.nil_append]
  case isFalse =>
    rw [SortedMap.entries_set_first book first]
    rfl

theorem min_eq_of_toInt_le {a b : Int64} (below : a.toInt ≤ b.toInt) : min a b = a :=
  if_pos (Int64.le_iff_toInt_le.mpr below)

theorem min_eq_of_le_toInt {a b : Int64} (above : b.toInt ≤ a.toInt) : min a b = b := by
  by_cases below : a ≤ b
  · have same : a = b := Int64.le_antisymm below (Int64.le_iff_toInt_le.mpr above)
    rw [same]
    exact if_pos (Int64.le_refl b)
  · exact if_neg below

theorem sub_part {a b : Int64} (start : 0 ≤ b.toInt) (part : b.toInt ≤ a.toInt) :
    CheckedInt.sub? a b = some (Int64.ofInt (a.toInt - b.toInt)) ∧
      (Int64.ofInt (a.toInt - b.toInt)).toInt = a.toInt - b.toInt := by
  have high := a.toInt_lt
  exact ⟨if_pos (by omega), Int64.toInt_ofInt_of_le (by omega) (by omega)⟩

theorem LevelOk.sublist {price : Int64} {level part : BookLevel}
    (ok : LevelOk mine next price level) (fewer : part.Sublist level) (filled : part ≠ []) :
    LevelOk mine next price part where
  nonempty := filled
  fifo := ok.fifo.sublist fewer
  each order member := ok.each order (fewer.mem member)

theorem LevelOk.trimmed {price : Int64} {maker : RestingOrder} {others : BookLevel} {part : Int}
    (ok : LevelOk mine next price (maker :: others)) (positive : 0 < part)
    (smaller : part < size maker) : LevelOk mine next price (trim maker part :: others) where
  nonempty := List.cons_ne_nil _ _
  fifo := by simpa using ok.fifo
  each order member := by
    rcases List.mem_cons.mp member with rfl | old
    · have each := ok.each maker List.mem_cons_self
      have left : 0 < size (trim maker part) := by
        rw [size_trim positive smaller]
        omega
      exact ⟨each.priced, each.sided, each.positive, left, each.known⟩
    · exact ok.each order (List.mem_cons_of_mem _ old)

/-- One side of the book and the index are in step; `away` is the other side. -/
structure InStep (mine : Side → Prop) (next : Nat) (away : List RestingOrder)
    (now : Matching before) : Prop where
  stocked : Stocked mine next now.book
  indexed : Index.Of RestingOrder.venueOrderId now.index (now.book.flat ++ away)

section Body

variable (orderId : Nat) (timestampNs : UInt64) {now : Matching before} {price : Int64}
  {maker : RestingOrder} {others : BookLevel}

theorem matchFront_part (found : now.index.lookup maker.venueOrderId = some maker)
    (running : 0 < now.remainingQuantity.toInt)
    (larger : now.remainingQuantity.toInt < size maker) :
    matchFront orderId timestampNs now price (maker :: others) = some
      { book := storeLevel now.book price (trim maker now.remainingQuantity.toInt :: others)
        index := now.index.insert maker.venueOrderId (trim maker now.remainingQuantity.toInt)
        remainingQuantity := 0
        matchEvents := now.matchEvents ++
          [matchEvent orderId timestampNs (maker, now.remainingQuantity.toInt)] } := by
  have traded : min now.remainingQuantity maker.remainingQuantity = now.remainingQuantity :=
    min_eq_of_toInt_le larger.le
  have reduced := (sub_part running.le (le_refl now.remainingQuantity.toInt)).1
  rw [sub_self] at reduced
  have makerReduced : CheckedInt.sub? maker.remainingQuantity now.remainingQuantity =
      some (trim maker now.remainingQuantity.toInt).remainingQuantity :=
    (sub_part running.le larger.le).1
  have stays : (trim maker now.remainingQuantity.toInt).remainingQuantity ≠ 0 := by
    intro zero
    have value := size_trim running larger
    rw [size, zero, Int64.toInt_zero] at value
    omega
  simp only [matchFront, traded, reduced, makerReduced, found, Option.bind_eq_bind,
    Option.bind_some, Option.getD_some, if_neg stays, matchEvent, Int64.ofInt_toInt]
  rfl

theorem matchFront_all (found : now.index.lookup maker.venueOrderId = some maker)
    (offered : 0 < size maker) (smaller : size maker ≤ now.remainingQuantity.toInt) :
    matchFront orderId timestampNs now price (maker :: others) = some
      { book := storeLevel now.book price others
        index := (now.index.insert maker.venueOrderId (trim maker (size maker))).erase
          maker.venueOrderId
        remainingQuantity := Int64.ofInt (now.remainingQuantity.toInt - size maker)
        matchEvents := now.matchEvents ++
          [matchEvent orderId timestampNs (maker, size maker)] } := by
  have traded : min now.remainingQuantity maker.remainingQuantity = maker.remainingQuantity :=
    min_eq_of_le_toInt smaller
  have reduced : CheckedInt.sub? now.remainingQuantity maker.remainingQuantity =
      some (Int64.ofInt (now.remainingQuantity.toInt - size maker)) :=
    (sub_part offered.le smaller).1
  have quantity : Int64.ofInt (size maker) = maker.remainingQuantity := Int64.ofInt_toInt _
  have makerReduced : CheckedInt.sub? maker.remainingQuantity maker.remainingQuantity =
      some (trim maker (size maker)).remainingQuantity :=
    (sub_part offered.le (le_refl (size maker))).1
  have gone : (trim maker (size maker)).remainingQuantity = 0 := by
    rw [trim, sub_self]
    rfl
  simp only [matchFront, traded, reduced, makerReduced, found, Option.bind_eq_bind,
    Option.bind_some, Option.getD_some, if_pos gone, matchEvent, quantity, removeFromIndex]
  rfl

end Body

variable {away : List RestingOrder} {now after : Matching before} {price : Int64}
  {maker : RestingOrder} {others : BookLevel} {later : List (Int64 × BookLevel)}

theorem InStep.trimmed {part : Int} (held : InStep mine next away now)
    (first : now.book.entries = (price, maker :: others) :: later) (positive : 0 < part)
    (smaller : part < size maker)
    (book : after.book = storeLevel now.book price (trim maker part :: others))
    (index : after.index = now.index.insert maker.venueOrderId (trim maker part)) :
    InStep mine next away after := by
  have ok := held.stocked price (maker :: others) (by rw [first]; exact List.mem_cons_self)
  have indexed := held.indexed
  constructor
  · rw [book]
    apply stocked_storeLevel held.stocked
    intro _
    exact ok.trimmed positive smaller
  · rw [book, index, flat_storeLevel_first first]
    rw [SortedMap.flat, first] at indexed
    exact Index.of_update indexed rfl

theorem InStep.removed {gone : RestingOrder} (held : InStep mine next away now)
    (first : now.book.entries = (price, maker :: others) :: later)
    (same : gone.venueOrderId = maker.venueOrderId)
    (book : after.book = storeLevel now.book price others)
    (index : after.index = (now.index.insert maker.venueOrderId gone).erase maker.venueOrderId) :
    InStep mine next away after := by
  have ok := held.stocked price (maker :: others) (by rw [first]; exact List.mem_cons_self)
  have indexed := held.indexed
  constructor
  · rw [book]
    exact stocked_storeLevel held.stocked (ok.sublist (List.sublist_cons_self maker others))
  · rw [book, index, flat_storeLevel_first first]
    rw [SortedMap.flat, first] at indexed
    have updated := Index.of_update indexed same
    rw [← same] at updated ⊢
    exact Index.of_erase updated

theorem matchFront_spec {outside : Int64 → Bool} (orderId : Nat) (timestampNs : UInt64)
    (held : InStep mine next away now)
    (first : now.book.entries = (price, maker :: others) :: later)
    (inside : outside price = false) (running : 0 < now.remainingQuantity.toInt) :
    ∃ after, matchFront orderId timestampNs now price (maker :: others) = some after ∧
      InStep mine next away after ∧ 0 ≤ after.remainingQuantity.toInt ∧
      (after.remainingQuantity = 0 ∨ after.book.flat.length < now.book.flat.length) ∧
      ∀ done, Served outside orderId timestampNs after done →
        Served outside orderId timestampNs now done := by
  have ok := held.stocked price (maker :: others) (by rw [first]; exact List.mem_cons_self)
  have flat : now.book.flat = maker :: (others ++ later.flatMap Prod.snd) := by
    simp [SortedMap.flat, first]
  have inside' : outside maker.priceTicks = false := by
    rw [(ok.each maker List.mem_cons_self).priced]
    exact inside
  have found : now.index.lookup maker.venueOrderId = some maker := by
    apply (held.indexed.lookup _ _).mpr
    simp [flat]
  by_cases larger : now.remainingQuantity.toInt < size maker
  · refine ⟨_, matchFront_part orderId timestampNs found running larger, ?_, ?_, ?_, ?_⟩
    · exact held.trimmed first running larger rfl rfl
    · show 0 ≤ (0 : Int64).toInt
      exact Int64.toInt_zero.ge
    · exact Or.inl rfl
    · intro done served
      exact served_part flat inside' running larger rfl rfl (flat_storeLevel_first first) served
  · have smaller : size maker ≤ now.remainingQuantity.toInt := by omega
    have offered := (ok.each maker List.mem_cons_self).open'
    have remaining : (Int64.ofInt (now.remainingQuantity.toInt - size maker)).toInt =
        now.remainingQuantity.toInt - size maker := (sub_part offered.le smaller).2
    refine ⟨_, matchFront_all orderId timestampNs found offered smaller, ?_, ?_, ?_, ?_⟩
    · exact held.removed first (trim_id maker (size maker)) rfl rfl
    · show 0 ≤ (Int64.ofInt (now.remainingQuantity.toInt - size maker)).toInt
      rw [remaining]
      exact sub_nonneg.mpr smaller
    · apply Or.inr
      rw [flat, flat_storeLevel_first first]
      exact Nat.lt_succ_self _
    · intro done served
      apply served_all flat inside' running smaller ?_ ?_ ?_ served
      · exact remaining
      · rfl
      · exact flat_storeLevel_first first

theorem matchLoop_covered {outside : Int64 → Bool} {orderId : Nat} {timestampNs : UInt64}
    {fuel : Nat} (covered : now.remainingQuantity.toInt ≤ 0) (enough : 0 < fuel) :
    matchLoop outside orderId timestampNs fuel now = some now := by
  rcases Nat.exists_eq_succ_of_ne_zero enough.ne' with ⟨fuel, rfl⟩
  apply if_neg
  rw [CheckedInt.pos_iff]
  omega

theorem matchLoop_spec (outside : Int64 → Bool) (orderId : Nat) (timestampNs : UInt64)
    {fuel : Nat} (held : InStep mine next away now) (start : 0 ≤ now.remainingQuantity.toInt)
    (enough : now.book.flat.length < fuel) :
    ∃ done, matchLoop outside orderId timestampNs fuel now = some done ∧
      InStep mine next away done ∧ Served outside orderId timestampNs now done := by
  induction fuel generalizing now with
  | zero => omega
  | succ fuel ih =>
      rcases start.eq_or_lt with covered | running
      · rw [matchLoop_covered covered.ge (by omega)]
        exact ⟨now, rfl, held, served_covered covered.ge⟩
      · rw [matchLoop]
        rw [if_pos (by rwa [CheckedInt.pos_iff])]
        match entries : now.book.entries with
        | [] =>
            have empty : accepted outside now.book = [] := by
              simp [accepted, SortedMap.flat, entries]
            exact ⟨now, rfl, held, served_refused empty⟩
        | (price, []) :: later =>
            have ok := held.stocked price [] (by rw [entries]; exact List.mem_cons_self)
            exact absurd rfl ok.nonempty
        | (price, maker :: others) :: later =>
            cases inside : outside price with
            | true =>
                have ok := held.stocked price (maker :: others)
                  (by rw [entries]; exact List.mem_cons_self)
                have stopped : accepted outside now.book = [] := by
                  simp [accepted, SortedMap.flat, entries, inside,
                    (ok.each maker List.mem_cons_self).priced]
                simp only [inside, if_true]
                exact ⟨now, rfl, held, served_refused stopped⟩
            | false =>
                rcases matchFront_spec orderId timestampNs held entries inside running with
                  ⟨after, body, kept, nonneg, progress, compose⟩
                simp only [inside, Bool.false_eq_true, if_false, body, Option.bind_some]
                rcases progress with zero | fewer
                · have covered : after.remainingQuantity.toInt ≤ 0 := by
                    rw [zero, Int64.toInt_zero]
                  have resting : 0 < now.book.flat.length := by
                    simp [SortedMap.flat, entries]
                  rw [matchLoop_covered covered (by omega)]
                  exact ⟨after, rfl, kept, compose after (served_covered covered)⟩
                · rcases ih kept nonneg (by omega) with ⟨done, ran, final, served⟩
                  exact ⟨done, ran, final, compose done served⟩

end Loop

end Ito.ExchangeSimulator
