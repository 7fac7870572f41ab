import DenonAvr.Library.Machine

/-!
# Paging through a list that changes

Items with rising keys, oldest first, to which newer items are added and from which the oldest are dropped. A reader
takes them newest first, a page at a time, and hands back the key of the last item it was given to continue there.

`Walk` has every item there ever was, and how many of them were dropped. A reader's place in it is an index: what the
reader has been given is the segment from there to where it started, backwards (`Placed`). A page moves the place down
and never past what was dropped (`placed_page`); nothing else moves it.
-/

namespace DenonAvr.Library.Paging

variable {α : Type*} (key : α → ℕ)

structure Page (α : Type*) where
  entries : List α
  /-- Where to continue, when older items remain. -/
  next : Option ℕ
deriving DecidableEq

/-- The items before the cursor, oldest first. -/
def below (cursor : Option ℕ) (items : List α) : List α := items.filter fun item => cursor.all fun c => decide (key item < c)

/-- Up to `limit` items before the cursor, newest first. One more is looked for, to learn whether older ones remain. -/
def page (limit : ℕ) (cursor : Option ℕ) (items : List α) : Page α :=
  let found := (below key cursor items).reverse.take (limit + 1)
  if found.length = limit + 1 then ⟨found.dropLast, found.dropLast.getLast?.map key⟩ else ⟨found, none⟩

structure Walk (α : Type*) where
  /-- Every item so far, oldest first. -/
  history : List α
  dropped : ℕ
  /-- How many items there had been when the first page was read, and how many of them had been dropped. -/
  first : ℕ
  firstDropped : ℕ
  pages : List (Page α)

namespace Walk

def items (walk : Walk α) : List α := walk.history.drop walk.dropped

/-- The items when the first page was read. -/
def start (walk : Walk α) : List α := (walk.history.take walk.first).drop walk.firstDropped

/-- What the pages so far hold. -/
def given (walk : Walk α) : List α := walk.pages.flatMap Page.entries

/-- Where the next page starts. -/
def next (walk : Walk α) : Option ℕ := walk.pages.getLast?.bind Page.next

end Walk

inductive WalkAction (α : Type*)
  | append (added : List α)
  | drop (count : ℕ)
  /-- The page after the last. -/
  | next (limit : ℕ)

/-- A walk, from its first page on. -/
def walking : Machine (Walk α) (WalkAction α) where
  init := fun walk => ∃ limit history dropped,
    0 < limit ∧ dropped ≤ history.length ∧ history.Pairwise (fun a b => key a < key b) ∧
      walk = ⟨history, dropped, history.length, dropped, [page key limit none (history.drop dropped)]⟩
  step := fun walk action =>
    match action with
    | .append added =>
      if (walk.history ++ added).Pairwise (fun a b => key a < key b) then
        some { walk with history := walk.history ++ added }
      else none
    | .drop count =>
      if walk.dropped + count ≤ walk.history.length then some { walk with dropped := walk.dropped + count } else none
    | .next limit =>
      walk.next.bind fun cursor =>
        if 0 < limit then some { walk with pages := walk.pages ++ [page key limit (some cursor) walk.items] } else none

section Steps
variable {key} {walk : Walk α} {added : List α} {count limit cursor : ℕ}

theorem step_append (hrise : (walk.history ++ added).Pairwise fun a b => key a < key b) :
    (walking key).step walk (.append added) = some { walk with history := walk.history ++ added } := if_pos hrise

theorem step_drop (hcount : walk.dropped + count ≤ walk.history.length) :
    (walking key).step walk (.drop count) = some { walk with dropped := walk.dropped + count } := if_pos hcount

theorem step_next (hnext : walk.next = some cursor) (hlimit : 0 < limit) :
    (walking key).step walk (.next limit) =
      some { walk with pages := walk.pages ++ [page key limit (some cursor) walk.items] } := by
  show walk.next.bind _ = _
  rw [hnext, Option.bind_some, if_pos hlimit]

end Steps

/-! ### One page -/

/-- Where a page leaves a reader. -/
def placeAfter (dropped limit place : ℕ) : ℕ := if place ≤ dropped then place else max (place - limit) dropped

section Page
variable {key} {history older items : List α} {place dropped limit : ℕ} {cursor : Option ℕ}

theorem placeAfter_le (dropped limit place : ℕ) : placeAfter dropped limit place ≤ place := by
  unfold placeAfter
  split_ifs <;> omega

theorem le_placeAfter {bottom : ℕ} (hplace : bottom ≤ place) (hdropped : bottom ≤ dropped) :
    bottom ≤ placeAfter dropped limit place := by
  unfold placeAfter
  split_ifs <;> omega

theorem placeAfter_of_more (hmore : limit < place - dropped) : placeAfter dropped limit place = place - limit := by
  unfold placeAfter
  rw [if_neg (by omega)]
  omega

theorem placeAfter_of_last (hlast : ¬ limit < place - dropped) : placeAfter dropped limit place ≤ dropped := by
  unfold placeAfter
  split_ifs <;> omega

theorem take_eq_append (history : List α) {first : ℕ} (hplace : place ≤ first) :
    history.take first = history.take place ++ (history.take first).drop place := by
  conv_lhs => rw [← List.take_append_drop place (history.take first)]
  rw [List.take_take, Nat.min_eq_left hplace]

theorem below_none : below key none items = items := List.filter_eq_self.mpr fun _ _ => rfl

theorem below_cons (item : α) : below key cursor (item :: items) =
    if cursor.all (fun c => decide (key item < c)) then item :: below key cursor items else below key cursor items :=
  List.filter_cons

/-- The items before the one at `place`. -/
theorem below_eq (hrise : history.Pairwise fun a b => key a < key b) (hplace : place < history.length) :
    below key (some (key history[place])) (history.drop dropped) = (history.take place).drop dropped := by
  have hsplit : history.drop dropped = (history.take place).drop dropped ++ (history.drop place).drop (dropped - place) := by
    conv_lhs => rw [← List.take_append_drop place history]
    rw [List.drop_append, List.length_take_of_le hplace.le]
  obtain ⟨-, hdrop, hacross⟩ := List.pairwise_append.mp ((List.take_append_drop place history).symm ▸ hrise)
  have hcons : history.drop place = history[place] :: history.drop (place + 1) := List.drop_eq_getElem_cons hplace
  have holder : ∀ a ∈ (history.take place).drop dropped, key a < key history[place] := fun a ha =>
    hacross a (List.mem_of_mem_drop ha) _ (by rw [hcons]; exact List.mem_cons_self)
  have hnewer : ∀ a ∈ (history.drop place).drop (dropped - place), ¬ key a < key history[place] := by
    intro a ha
    have hmem := List.mem_of_mem_drop ha
    rw [hcons] at hmem hdrop
    obtain rfl | hmem := List.mem_cons.mp hmem
    · exact lt_irrefl _
    · exact ((List.pairwise_cons.mp hdrop).1 a hmem).not_gt
  show (history.drop dropped).filter (fun a => decide (key a < key history[place])) = _
  rw [hsplit, List.filter_append, List.filter_eq_self.mpr fun a ha => decide_eq_true (holder a ha),
    List.filter_eq_nil_iff.mpr fun a ha => by simpa using hnewer a ha, List.append_nil]

/-- **A page** of the items it may hold: the newest of them, and where to continue if it does not hold them all. -/
theorem page_eq (holder : below key cursor items = older) :
    page key limit cursor items =
      ⟨(older.drop (older.length - limit)).reverse,
        if limit < older.length then older[older.length - limit]?.map key else none⟩ := by
  unfold page
  rw [holder]
  dsimp only
  by_cases hmore : limit < older.length
  · have hfull : (older.reverse.take (limit + 1)).length = limit + 1 := by
      rw [List.length_take, List.length_reverse]
      omega
    have hlast : (older.reverse.take (limit + 1)).dropLast = (older.drop (older.length - limit)).reverse := by
      rw [List.dropLast_eq_take, hfull, Nat.add_sub_cancel, List.take_take, Nat.min_eq_left (Nat.le_succ _),
        List.take_reverse]
    rw [if_pos hfull, if_pos hmore, hlast, List.getLast?_reverse, List.head?_drop]
  · have hshort : (older.reverse.take (limit + 1)).length ≠ limit + 1 := by
      rw [List.length_take, List.length_reverse]
      omega
    rw [if_neg hshort, if_neg hmore, List.take_of_length_le (by rw [List.length_reverse]; omega),
      Nat.sub_eq_zero_of_le (by omega), List.drop_zero]

/-- The same at a reader's place. -/
theorem page_at (hbelow : below key cursor items = (history.take place).drop dropped) (hplace : place ≤ history.length)
    (hlimit : 0 < limit) :
    page key limit cursor items =
      ⟨((history.take place).drop (placeAfter dropped limit place)).reverse,
        if limit < place - dropped then history[placeAfter dropped limit place]?.map key else none⟩ := by
  have hlength : ((history.take place).drop dropped).length = place - dropped := by
    rw [List.length_drop, List.length_take_of_le hplace]
  rw [page_eq hbelow, hlength, List.drop_drop]
  congr 1
  · unfold placeAfter
    split_ifs with hempty
    · rw [List.drop_eq_nil_of_le (by rw [List.length_take]; omega),
        List.drop_eq_nil_of_le (by rw [List.length_take]; omega)]
    · congr 2
      omega
  · split_ifs with hmore
    · rw [placeAfter_of_more hmore, List.getElem?_drop, List.getElem?_take_of_lt (by omega)]
      congr 2
      omega
    · rfl

end Page

/-! ### The reader's place -/

/-- The reader has been given what is between `place` and where it started, and goes on before `place`. -/
structure Placed (walk : Walk α) (place : ℕ) : Prop where
  rise : walk.history.Pairwise fun a b => key a < key b
  dropped_le : walk.dropped ≤ walk.history.length
  first_le : walk.first ≤ walk.history.length
  firstDropped_le : walk.firstDropped ≤ walk.dropped
  le_place : walk.firstDropped ≤ place
  place_le : place ≤ walk.first
  given : walk.given = ((walk.history.take walk.first).drop place).reverse
  /-- The reader goes on from the last item it was given, or nothing is left before `place`. -/
  next : (∃ h : place < walk.history.length, walk.next = some (key walk.history[place])) ∨
    walk.next = none ∧ place ≤ walk.dropped
  /-- Every page but the last holds something. -/
  pages : walk.pages.length + place ≤ walk.first + if walk.next = none then 1 else 0

section Placed
variable {key} {walk walk' : Walk α} {place limit : ℕ} {cursor : Option ℕ}

theorem next_concat (pages : List (Page α)) (last : Page α) :
    Walk.next { walk with pages := pages ++ [last] } = last.next := by
  unfold Walk.next
  rw [List.getLast?_concat, Option.bind_some]

/-- **A page** moves the reader's place down, at least by one while older items remain. -/
theorem placed_page (hrise : walk.history.Pairwise fun a b => key a < key b) (hdropped : walk.dropped ≤ walk.history.length)
    (hfirst : walk.first ≤ walk.history.length) (hstart : walk.firstDropped ≤ walk.dropped)
    (hle : walk.firstDropped ≤ place) (hplace : place ≤ walk.first)
    (hgiven : walk.given = ((walk.history.take walk.first).drop place).reverse)
    (hbelow : below key cursor walk.items = (walk.history.take place).drop walk.dropped)
    (hpages : walk.pages.length + place ≤ walk.first) (hlimit : 0 < limit) :
    Placed key { walk with pages := walk.pages ++ [page key limit cursor walk.items] }
      (placeAfter walk.dropped limit place) := by
  have hpage := page_at hbelow (hplace.trans hfirst) hlimit
  have hafter := placeAfter_le walk.dropped limit place
  obtain ⟨after, hafterEq⟩ : ∃ after, placeAfter walk.dropped limit place = after := ⟨_, rfl⟩
  have hmoves : limit < place - walk.dropped → after = place - limit := fun h => hafterEq ▸ placeAfter_of_more h
  have hstays : ¬ limit < place - walk.dropped → after ≤ walk.dropped := fun h => hafterEq ▸ placeAfter_of_last h
  have hfrom : walk.firstDropped ≤ after := hafterEq ▸ le_placeAfter hle hstart
  rw [hafterEq] at hpage hafter ⊢
  refine ⟨hrise, hdropped, hfirst, hstart, hfrom, hafter.trans hplace, ?_, ?_, ?_⟩
  · -- the page holds the segment that ends where the earlier ones begin
    have hsplit := take_eq_append walk.history hplace
    have hlength : after ≤ (walk.history.take place).length := by
      rw [List.length_take_of_le (hplace.trans hfirst)]
      exact hafter
    show (walk.pages ++ [page key limit cursor walk.items]).flatMap Page.entries = _
    rw [List.flatMap_append, List.flatMap_singleton, hpage]
    show walk.given ++ _ = ((walk.history.take walk.first).drop after).reverse
    rw [hgiven, ← List.reverse_append, hsplit, List.drop_append_of_le_length hlength, ← hsplit]
  · rw [next_concat, hpage]
    by_cases hmore : limit < place - walk.dropped
    · have hlt : after < walk.history.length := by
        have := hmoves hmore
        omega
      refine .inl ⟨hlt, ?_⟩
      show (if _ then _ else _) = _
      rw [if_pos hmore, List.getElem?_eq_getElem hlt]
      rfl
    · exact .inr ⟨if_neg hmore, hstays hmore⟩
  · rw [next_concat, hpage]
    show (walk.pages ++ [_]).length + after ≤ walk.first + _
    rw [List.length_append, List.length_singleton]
    by_cases hmore : limit < place - walk.dropped
    · have := hmoves hmore
      omega
    · simp only [hmore, ↓reduceIte]
      omega

theorem Placed.page (h : Placed key walk place) (hnext : walk.next = some c) (hlimit : 0 < limit) :
    Placed key { walk with pages := walk.pages ++ [Paging.page key limit (some c) walk.items] }
      (placeAfter walk.dropped limit place) := by
  obtain ⟨hlt, hc⟩ | ⟨hnone, -⟩ := h.next
  · obtain rfl := Option.some.inj (hnext.symm.trans hc)
    have hpages := h.pages
    rw [hnext, if_neg (Option.some_ne_none _)] at hpages
    exact placed_page h.rise h.dropped_le h.first_le h.firstDropped_le h.le_place h.place_le h.given
      (below_eq h.rise hlt) hpages hlimit
  · rw [hnone] at hnext
    cases hnext

theorem Placed.append {added : List α} (h : Placed key walk place)
    (hrise : (walk.history ++ added).Pairwise fun a b => key a < key b) :
    Placed key { walk with history := walk.history ++ added } place := by
  have hlength : walk.history.length ≤ (walk.history ++ added).length := by simp
  refine ⟨hrise, h.dropped_le.trans hlength, h.first_le.trans hlength, h.firstDropped_le, h.le_place, h.place_le, ?_, ?_,
    h.pages⟩
  · show walk.given = (((walk.history ++ added).take walk.first).drop place).reverse
    rw [List.take_append_of_le_length h.first_le]
    exact h.given
  · obtain ⟨hlt, hnext⟩ | hnone := h.next
    · refine .inl ⟨hlt.trans_le hlength, ?_⟩
      show walk.next = some (key (walk.history ++ added)[place])
      rw [List.getElem_append_left hlt]
      exact hnext
    · exact .inr hnone

theorem Placed.drop {count : ℕ} (h : Placed key walk place) (hcount : walk.dropped + count ≤ walk.history.length) :
    Placed key { walk with dropped := walk.dropped + count } place :=
  ⟨h.rise, hcount, h.first_le, h.firstDropped_le.trans (Nat.le_add_right _ _), h.le_place, h.place_le, h.given,
    h.next.imp_right fun hnone => ⟨hnone.1, hnone.2.trans (Nat.le_add_right _ _)⟩, h.pages⟩

theorem placed_of_reachable (h : (walking key).Reachable walk) : ∃ place, Placed key walk place := by
  refine h.invariant (I := fun walk => ∃ place, Placed key walk place) ?_ ?_
  · rintro _ ⟨limit, history, dropped, hlimit, hdropped, hrise, rfl⟩
    have h := @placed_page _ key ⟨history, dropped, history.length, dropped, []⟩ history.length limit none hrise hdropped le_rfl le_rfl hdropped le_rfl (by simp [Walk.given]) (by
        rw [below_none, List.take_length]
        rfl) (by simp) hlimit
    exact ⟨_, h⟩
  · rintro walk action walk' - ⟨place, hplaced⟩ hstep
    cases action with
    | append added =>
      obtain ⟨hrise, hwalk⟩ := Option.ite_none_right_eq_some.mp hstep
      exact ⟨place, Option.some.inj hwalk ▸ hplaced.append hrise⟩
    | drop count =>
      obtain ⟨hcount, hwalk⟩ := Option.ite_none_right_eq_some.mp hstep
      exact ⟨place, Option.some.inj hwalk ▸ hplaced.drop hcount⟩
    | next limit =>
      obtain ⟨c, hnext, hwalk⟩ := Option.bind_eq_some_iff.mp hstep
      obtain ⟨hlimit, hwalk⟩ := Option.ite_none_right_eq_some.mp hwalk
      exact ⟨_, Option.some.inj hwalk ▸ hplaced.page hnext hlimit⟩

end Placed

/-! ### A walk -/

section Walks
variable {key} {walk : Walk α}

/-- What the reader is given are items of the start, each once and newest first. -/
theorem given_sublist (h : (walking key).Reachable walk) :
    walk.given.Sublist walk.start.reverse ∧ walk.given.Pairwise fun a b => key b < key a := by
  obtain ⟨place, hplaced⟩ := placed_of_reachable h
  rw [hplaced.given]
  unfold Walk.start
  refine ⟨List.Sublist.reverse (List.drop_sublist_drop_left _ hplaced.le_place), List.pairwise_reverse.mpr ?_⟩
  exact hplaced.rise.sublist ((List.drop_sublist _ _).trans (List.take_sublist _ _))

/-- **At the end of a walk** nothing is missing but what was dropped. -/
theorem mem_given (h : (walking key).Reachable walk) (hend : walk.next = none) {item : α} (hstart : item ∈ walk.start)
    (hitem : item ∈ walk.items) : item ∈ walk.given := by
  obtain ⟨place, hplaced⟩ := placed_of_reachable h
  have hplace : place ≤ walk.dropped := by
    obtain ⟨hlt, hsome⟩ | ⟨-, hle⟩ := hplaced.next
    · rw [hend] at hsome
      cases hsome
    · exact hle
  -- an item that is not dropped is not before the reader's place
  have hnewer : item ∈ walk.history.drop place := (List.drop_sublist_drop_left _ hplace).subset hitem
  have hrise := hplaced.rise
  rw [← List.take_append_drop place walk.history] at hrise
  have hmem : item ∈ walk.history.take walk.first := List.mem_of_mem_drop hstart
  rw [take_eq_append walk.history hplaced.place_le, List.mem_append] at hmem
  obtain holder | hmem := hmem
  · exact absurd ((List.pairwise_append.mp hrise).2.2 item holder item hnewer) (lt_irrefl _)
  · rw [hplaced.given, List.mem_reverse]
    exact hmem

/-- A walk ends: it has one page more than it has items at most. -/
theorem length_pages_le (h : (walking key).Reachable walk) : walk.pages.length ≤ walk.start.length + 1 := by
  obtain ⟨place, hplaced⟩ := placed_of_reachable h
  have hpages := hplaced.pages
  have hbottom := hplaced.le_place
  unfold Walk.start
  rw [List.length_drop, List.length_take_of_le hplaced.first_le]
  split_ifs at hpages <;> omega

end Walks

end DenonAvr.Library.Paging
