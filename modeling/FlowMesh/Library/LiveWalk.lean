import Mathlib.Data.List.Infix
import Mathlib.Tactic.Common

/-!
# Walks over a growing dictionary of lists

A walk goes over the entries of a dictionary, and over the items of each entry that is wanted. It
waits at every item, and while it waits items may be appended to the lists, and entries to the
dictionary. The walk over the items of an entry goes on with those that were appended; the walk
over the entries refuses to go on when their number has changed.

`Walk.Spans` says what a walk has visited by the items there were when it began and those there
are now. It holds at the beginning, and growing and walking on keep it.
-/

namespace LiveWalk

variable {κ α : Type}

/-! ## Growing -/

/-- The items of the entries that are wanted. -/
def itemsOf (wanted : κ → Bool) (entries : List (κ × List α)) : List α :=
  entries.flatMap fun e => if wanted e.1 then e.2 else []

/-- Items were appended to the lists, and entries behind the others. -/
inductive Grown : List (κ × List α) → List (κ × List α) → Prop
  | nil {entries : List (κ × List α)} : Grown [] entries
  | cons {key : κ} {l l' : List α} {entries entries' : List (κ × List α)} (hl : l <+: l')
      (h : Grown entries entries') : Grown ((key, l) :: entries) ((key, l') :: entries')

namespace Grown

variable {es es' es'' : List (κ × List α)}

theorem refl (es : List (κ × List α)) : Grown es es := by
  induction es with
  | nil => exact .nil
  | cons e es ih => exact .cons List.prefix_rfl ih

theorem trans (h : Grown es es') (h' : Grown es' es'') : Grown es es'' := by
  induction h generalizing es'' with
  | nil => exact .nil
  | cons hl _ ih =>
    cases h' with
    | cons hl' h' => exact .cons (hl.trans hl') (ih h')

theorem append (es more : List (κ × List α)) : Grown es (es ++ more) := by
  induction es with
  | nil => exact .nil
  | cons e es ih => exact .cons List.prefix_rfl ih

/-- Lists that are replaced by longer ones. -/
theorem map {f : κ × List α → κ × List α} (hf : ∀ e ∈ es, (f e).1 = e.1 ∧ e.2 <+: (f e).2) :
    Grown es (es.map f) := by
  induction es with
  | nil => exact .nil
  | cons e es ih =>
    have hrest := ih fun e he => hf e (List.mem_cons_of_mem _ he)
    obtain ⟨hkey, hl⟩ := hf e List.mem_cons_self
    obtain ⟨key, l⟩ := e
    rw [List.map_cons, show f (key, l) = (key, (f (key, l)).2) from Prod.ext hkey rfl]
    exact .cons hl hrest

theorem length_le (h : Grown es es') : es.length ≤ es'.length := by
  induction h with
  | nil => exact Nat.zero_le _
  | cons _ _ ih => simpa using ih

theorem take (h : Grown es es') (n : ℕ) : Grown (es.take n) (es'.take n) := by
  induction h generalizing n with
  | nil => simpa using .nil
  | cons hl _ ih =>
    cases n with
    | zero => exact .nil
    | succ n => exact .cons hl (ih n)

theorem drop (h : Grown es es') (n : ℕ) : Grown (es.drop n) (es'.drop n) := by
  induction h generalizing n with
  | nil => simpa using .nil
  | cons hl h ih =>
    cases n with
    | zero => exact .cons hl h
    | succ n => exact ih n

/-- Where there was an entry there is one with its key, and more items. -/
theorem getElem? (h : Grown es es') {n : ℕ} {key : κ} {l : List α} (hn : es[n]? = some (key, l)) :
    ∃ l', es'[n]? = some (key, l') ∧ l <+: l' := by
  induction h generalizing n with
  | nil => simp at hn
  | cons hl _ ih =>
    cases n with
    | zero =>
      obtain ⟨rfl, rfl⟩ : _ = key ∧ _ = l := by simpa using hn
      exact ⟨_, rfl, hl⟩
    | succ n => exact ih (by simpa using hn)

/-- Growing takes no item away. -/
theorem sublist_itemsOf (h : Grown es es') (wanted : κ → Bool) :
    (itemsOf wanted es).Sublist (itemsOf wanted es') := by
  induction h with
  | nil => exact List.nil_sublist _
  | @cons key l l' es es' hl _ ih =>
    simp only [itemsOf, List.flatMap_cons] at ih ⊢
    refine List.Sublist.append ?_ ih
    split_ifs
    · exact hl.sublist
    · exact List.Sublist.refl _

end Grown

theorem itemsOf_append (wanted : κ → Bool) (es es' : List (κ × List α)) :
    itemsOf wanted (es ++ es') = itemsOf wanted es ++ itemsOf wanted es' := List.flatMap_append

theorem itemsOf_take_add (wanted : κ → Bool) (es : List (κ × List α)) (m n : ℕ) :
    itemsOf wanted (es.take (m + n)) =
      itemsOf wanted (es.take m) ++ itemsOf wanted ((es.drop m).take n) := by
  rw [← itemsOf_append, List.take_add]

theorem itemsOf_take_succ (wanted : κ → Bool) {es : List (κ × List α)} {n : ℕ} {key : κ}
    {l : List α} (hn : es[n]? = some (key, l)) (hkey : wanted key = true) :
    itemsOf wanted (es.take (n + 1)) = itemsOf wanted (es.take n) ++ l := by
  rw [List.take_add_one, hn, itemsOf_append]
  simp [itemsOf, hkey]

theorem itemsOf_take_sublist (wanted : κ → Bool) (es : List (κ × List α)) (n : ℕ) :
    (itemsOf wanted (es.take n)).Sublist (itemsOf wanted es) := by
  conv_rhs => rw [← List.take_append_drop n es, itemsOf_append]
  exact List.sublist_append_left _ _

/-! ## Walking -/

/-- How a walk ends: behind the last entry, because the number of entries has changed, or because
it was given up. -/
inductive Ending
  | exhausted
  | resized
  | abandoned
  deriving DecidableEq

/-- A walk: the number of entries when it began, the entry it is at, how many of its items were
visited, and all that were. -/
structure Walk (α : Type) where
  size : ℕ
  entry : ℕ
  item : ℕ
  visited : List α
  ending : Option Ending := none

/-- The next entry that is wanted and has items, with the first of them. -/
def nextEntry (wanted : κ → Bool) : List (κ × List α) → Option (ℕ × α)
  | [] => none
  | e :: es =>
    match wanted e.1, e.2 with
    | true, a :: _ => some (0, a)
    | _, _ => (nextEntry wanted es).map fun (n, a) => (n + 1, a)

namespace Walk

variable (wanted : κ → Bool) (entries : List (κ × List α))

/-- Go to the entries from a position on. -/
def enter (start : ℕ) (w : Walk α) : Walk α :=
  match nextEntry wanted (entries.drop start) with
  | some (n, a) => { w with entry := start + n, item := 1, visited := w.visited ++ [a] }
  | none => { w with ending := some .exhausted }

/-- Begin a walk. -/
def begin : Walk α := enter wanted entries 0 ⟨entries.length, 0, 0, [], none⟩

/-- Walk on. -/
def next (w : Walk α) : Walk α :=
  match w.ending with
  | some _ => w
  | none =>
    match (entries[w.entry]?).bind fun e => e.2[w.item]? with
    | some a => { w with item := w.item + 1, visited := w.visited ++ [a] }
    | none =>
      if entries.length = w.size then enter wanted entries (w.entry + 1) w
      else { w with ending := some .resized }

/-- Give up a walk. -/
def abandon (w : Walk α) : Walk α :=
  match w.ending with
  | some _ => w
  | none => { w with ending := some .abandoned }

end Walk

theorem nextEntry_some {wanted : κ → Bool} {es : List (κ × List α)} {n : ℕ} {a : α}
    (h : nextEntry wanted es = some (n, a)) :
    itemsOf wanted (es.take n) = [] ∧
      ∃ key l, es[n]? = some (key, a :: l) ∧ wanted key = true := by
  induction es generalizing n with
  | nil => cases h
  | cons e es ih =>
    obtain ⟨key, l⟩ := e
    cases hkey : wanted key with
    | false =>
      simp only [nextEntry, hkey, Option.map_eq_some_iff, Prod.mk.injEq, Prod.exists] at h
      obtain ⟨m, b, hm, rfl, rfl⟩ := h
      obtain ⟨hbefore, hentry⟩ := ih hm
      exact ⟨by simpa [itemsOf, hkey] using hbefore, hentry⟩
    | true =>
      cases l with
      | nil =>
        simp only [nextEntry, hkey, Option.map_eq_some_iff, Prod.mk.injEq, Prod.exists] at h
        obtain ⟨m, b, hm, rfl, rfl⟩ := h
        obtain ⟨hbefore, hentry⟩ := ih hm
        exact ⟨by simpa [itemsOf, hkey] using hbefore, hentry⟩
      | cons b l =>
        simp only [nextEntry, hkey, Option.some.injEq, Prod.mk.injEq] at h
        obtain ⟨rfl, rfl⟩ := h
        exact ⟨rfl, key, l, rfl, hkey⟩

theorem nextEntry_none {wanted : κ → Bool} {es : List (κ × List α)}
    (h : nextEntry wanted es = none) : itemsOf wanted es = [] := by
  induction es with
  | nil => rfl
  | cons e es ih =>
    obtain ⟨key, l⟩ := e
    cases hkey : wanted key with
    | false =>
      simp only [nextEntry, hkey, Option.map_eq_none_iff] at h
      simpa [itemsOf, hkey] using ih h
    | true =>
      cases l with
      | nil =>
        simp only [nextEntry, hkey, Option.map_eq_none_iff] at h
        simpa [itemsOf, hkey] using ih h
      | cons b l => simp [nextEntry, hkey] at h

/-! ## What a walk visits -/

/-- Where a walk waits: at an entry that is wanted, behind some of its items and all items there
were of the entries before it. -/
structure Walk.Waits (wanted : κ → Bool) (first last : List (κ × List α)) (w : Walk α) : Prop where
  entry_lt : w.entry < first.length
  at_item : ∃ key l past, last[w.entry]? = some (key, l) ∧ wanted key = true ∧
    w.item ≤ l.length ∧ w.visited = past ++ l.take w.item ∧
      (itemsOf wanted (first.take w.entry)).Sublist past ∧
        past.Sublist (itemsOf wanted (last.take w.entry))

/-- What a walk has visited, by the entries when it began and those of now. -/
structure Walk.Spans (wanted : κ → Bool) (first last : List (κ × List α)) (w : Walk α) : Prop where
  grown : Grown first last
  size_eq : w.size = first.length
  visited : w.visited.Sublist (itemsOf wanted last)
  waiting : w.ending = none → w.Waits wanted first last
  exhausted : w.ending = some .exhausted → (itemsOf wanted first).Sublist w.visited
  resized : w.ending = some .resized → first.length < last.length

namespace Walk.Spans

variable {wanted : κ → Bool} {first last last' : List (κ × List α)} {w : Walk α}

/-- Going to the next entries, behind those before `start`. -/
theorem enter {start : ℕ} (hgrown : Grown first last) (hlength : last.length = first.length)
    (hsize : w.size = first.length) (hnone : w.ending = none)
    (hall : (itemsOf wanted (first.take start)).Sublist w.visited)
    (hpast : w.visited.Sublist (itemsOf wanted (last.take start))) :
    (w.enter wanted last start).Spans wanted first last := by
  unfold Walk.enter
  cases hnext : nextEntry wanted (last.drop start) with
  | none =>
    have hrest : itemsOf wanted (first.drop start) = [] :=
      List.sublist_nil.1 (nextEntry_none hnext ▸ (hgrown.drop start).sublist_itemsOf wanted)
    refine ⟨hgrown, hsize, hpast.trans (itemsOf_take_sublist wanted last start), ?_, ?_, ?_⟩
    · rintro ⟨⟩
    · intro _
      rwa [← List.take_append_drop start first, itemsOf_append, hrest, List.append_nil]
    · rintro ⟨⟩
  | some p =>
    obtain ⟨n, a⟩ := p
    obtain ⟨hbetween, key, l, hentry, hkey⟩ := nextEntry_some hnext
    rw [List.getElem?_drop] at hentry
    have hfirst : itemsOf wanted ((first.drop start).take n) = [] :=
      List.sublist_nil.1 (hbetween ▸ ((hgrown.drop start).take n).sublist_itemsOf wanted)
    have hpast' : w.visited.Sublist (itemsOf wanted (last.take (start + n))) := by
      rwa [itemsOf_take_add, hbetween, List.append_nil]
    have hlt : start + n < last.length := (List.getElem?_eq_some_iff.1 hentry).1
    refine ⟨hgrown, hsize, ?_, fun _ => ⟨by simpa [← hlength] using hlt, ?_⟩, ?_, ?_⟩
    · refine List.Sublist.trans ?_ (itemsOf_take_sublist wanted last (start + n + 1))
      rw [itemsOf_take_succ wanted hentry hkey]
      exact hpast'.append (List.singleton_sublist.2 List.mem_cons_self)
    · refine ⟨key, a :: l, w.visited, hentry, hkey, by simp, by simp, ?_, hpast'⟩
      rwa [itemsOf_take_add, hfirst, List.append_nil]
    · simp [hnone]
    · simp [hnone]

theorem begin (wanted : κ → Bool) (entries : List (κ × List α)) :
    (Walk.begin wanted entries).Spans wanted entries entries :=
  enter (.refl entries) rfl rfl rfl (List.Sublist.refl _) (List.Sublist.refl _)

/-- Growing. -/
theorem grow (h : w.Spans wanted first last) (hgrown : Grown last last') :
    w.Spans wanted first last' where
  grown := h.grown.trans hgrown
  size_eq := h.size_eq
  visited := h.visited.trans (hgrown.sublist_itemsOf wanted)
  waiting hnone := by
    obtain ⟨hlt, key, l, past, hentry, hkey, hitem, hvisited, hall, hpast⟩ := h.waiting hnone
    obtain ⟨l', hentry', hprefix⟩ := hgrown.getElem? hentry
    refine ⟨hlt, key, l', past, hentry', hkey, hitem.trans hprefix.length_le, ?_, hall,
      hpast.trans ((hgrown.take _).sublist_itemsOf wanted)⟩
    obtain ⟨more, rfl⟩ := hprefix
    rw [hvisited, List.take_append_of_le_length hitem]
  exhausted := h.exhausted
  resized hresized := (h.resized hresized).trans_le hgrown.length_le

/-- Walking on. -/
theorem next (h : w.Spans wanted first last) : (w.next wanted last).Spans wanted first last := by
  unfold Walk.next
  cases hending : w.ending with
  | some ending => exact h
  | none =>
    obtain ⟨hlt, key, l, past, hentry, hkey, hitem, hvisited, hall, hpast⟩ := h.waiting hending
    simp only [hentry, Option.bind_some]
    cases hget : l[w.item]? with
    | some a =>
      have htake : l.take (w.item + 1) = l.take w.item ++ [a] := by
        rw [List.take_add_one, hget, Option.toList_some]
      have hvisited' : w.visited ++ [a] = past ++ l.take (w.item + 1) := by
        rw [hvisited, htake, List.append_assoc]
      refine ⟨h.grown, h.size_eq, ?_, fun _ => ⟨hlt, key, l, past, hentry, hkey,
        (List.getElem?_eq_some_iff.1 hget).1, hvisited', hall, hpast⟩, ?_, ?_⟩
      · show (w.visited ++ [a]).Sublist _
        rw [hvisited']
        refine List.Sublist.trans ?_ (itemsOf_take_sublist wanted last (w.entry + 1))
        rw [itemsOf_take_succ wanted hentry hkey]
        exact hpast.append (List.take_sublist ..)
      · simp
      · simp
    | none =>
      -- the list of the entry is used up
      have hvisited' : w.visited = past ++ l := by
        rw [hvisited, List.take_of_length_le (List.getElem?_eq_none_iff.1 hget)]
      simp only
      split_ifs with hsame
      · have hlength : last.length = first.length := hsame.trans h.size_eq
        refine enter h.grown hlength h.size_eq hending ?_ ?_
        · obtain ⟨⟨key', l₀⟩, hentry₀⟩ : ∃ e, first[w.entry]? = some e :=
            ⟨_, List.getElem?_eq_getElem hlt⟩
          obtain ⟨l', hentry', hprefix⟩ := h.grown.getElem? hentry₀
          obtain ⟨rfl, rfl⟩ : key = key' ∧ l = l' := by simpa [hentry] using hentry'
          rw [itemsOf_take_succ wanted hentry₀ hkey, hvisited']
          exact hall.append hprefix.sublist
        · rw [itemsOf_take_succ wanted hentry hkey, hvisited']
          exact hpast.append (List.Sublist.refl _)
      · refine ⟨h.grown, h.size_eq, h.visited, ?_, ?_, fun _ => ?_⟩
        · rintro ⟨⟩
        · rintro ⟨⟩
        · exact lt_of_le_of_ne h.grown.length_le fun heq => hsame (heq.symm.trans h.size_eq.symm)

theorem abandon (h : w.Spans wanted first last) : w.abandon.Spans wanted first last := by
  unfold Walk.abandon
  cases hending : w.ending with
  | some ending => exact h
  | none =>
    refine ⟨h.grown, h.size_eq, h.visited, ?_, ?_, ?_⟩
    · rintro ⟨⟩
    · rintro ⟨⟩
    · rintro ⟨⟩

end Walk.Spans

/-- A walk that goes on has visited one more item. -/
theorem Walk.length_visited_next {wanted : κ → Bool} {entries : List (κ × List α)} {w : Walk α}
    (h : (w.next wanted entries).ending = none) :
    w.ending = none ∧ (w.next wanted entries).visited.length = w.visited.length + 1 := by
  cases hending : w.ending with
  | some ending => simp [Walk.next, hending] at h
  | none =>
    refine ⟨rfl, ?_⟩
    cases hitem : (entries[w.entry]?).bind fun e => e.2[w.item]? with
    | some a => simp [Walk.next, hending, hitem]
    | none =>
      simp only [Walk.next, hending, hitem] at h ⊢
      split_ifs at h ⊢ with hsame
      unfold Walk.enter at h ⊢
      cases hnext : nextEntry wanted (entries.drop (w.entry + 1)) with
      | none => simp [hnext] at h
      | some p => simp

namespace Walk

variable {wanted : κ → Bool} {entries : List (κ × List α)} {w : Walk α}

/-- A walk that has begun and goes on waits at an item. -/
theorem visited_begin_pos (h : (begin wanted entries).ending = none) :
    0 < (begin wanted entries).visited.length := by
  unfold begin enter at h ⊢
  cases hnext : nextEntry wanted (entries.drop 0) with
  | none =>
    simp only [hnext] at h
    cases h
  | some p =>
    obtain ⟨n, a⟩ := p
    exact Nat.zero_lt_one

theorem ending_begin_ne (wanted : κ → Bool) (entries : List (κ × List α)) :
    (begin wanted entries).ending ≠ some .abandoned := by
  unfold begin enter
  cases nextEntry wanted (entries.drop 0) <;> simp

theorem ending_abandon_ne (w : Walk α) : w.abandon.ending ≠ none := by
  unfold abandon
  cases hending : w.ending <;> simp [hending]

/-- Walking on does not give up. -/
theorem ending_of_next_abandoned (h : (w.next wanted entries).ending = some .abandoned) :
    w.ending = some .abandoned := by
  cases hending : w.ending with
  | some ending => simpa [next, hending] using h
  | none =>
    cases hitem : (entries[w.entry]?).bind fun e => e.2[w.item]? with
    | some a => simp [next, hending, hitem] at h
    | none =>
      simp only [next, hending, hitem] at h
      split_ifs at h
      · unfold enter at h
        cases hnext : nextEntry wanted (entries.drop (w.entry + 1)) with
        | none => simp [hnext] at h
        | some p => simp [hnext, hending] at h
      · cases h

end Walk

end LiveWalk
