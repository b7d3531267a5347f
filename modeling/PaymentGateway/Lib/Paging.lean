import Mathlib.Data.List.Sort

/-!
# Pages by key

A listing that hands out its rows page by page, each page from the last key of the one before, in
an order of the keys. `IsPage` says what a page is, and `isPage_take` that fetching one row more
than the limit and keeping the last key kept gives one.

A `Walk` follows the pages over a table that may change between them. What it returns increases,
so nothing is repeated; every key that was in the table each time and has been passed was returned
(`Walk.returned`); and on a table that stays as it is the walk ends, with the whole table in order
(`Walk.whole`).
-/

namespace Paging

variable {σ ρ κ : Type*} [LinearOrder κ] {key : ρ → κ}

/-! ## Order -/

/-- The rows in the order of their keys. -/
def sorted (key : ρ → κ) (rows : List ρ) : List ρ := rows.mergeSort fun a b => decide (key a ≤ key b)

/-- In the order of the keys, without two rows of one key. -/
def Increasing (key : ρ → κ) (rows : List ρ) : Prop := rows.Pairwise fun a b => key a < key b

@[simp] theorem mem_sorted {rows : List ρ} {r : ρ} : r ∈ sorted key rows ↔ r ∈ rows := by
  simp [sorted]

theorem increasing_sorted {rows : List ρ} (h : (rows.map key).Nodup) :
    Increasing key (sorted key rows) := by
  have hle : (sorted key rows).Pairwise fun a b => key a ≤ key b := by
    have htrans : ∀ a b c : ρ, decide (key a ≤ key b) = true → decide (key b ≤ key c) = true →
        decide (key a ≤ key c) = true := by
      simpa using fun a b c => le_trans
    have htotal : ∀ a b : ρ, (decide (key a ≤ key b) || decide (key b ≤ key a)) = true := by
      simp [le_total]
    simpa [sorted] using List.pairwise_mergeSort htrans htotal rows
  have hnodup : ((sorted key rows).map key).Nodup :=
    ((List.mergeSort_perm rows _).map key).nodup_iff.2 h
  have hne : (sorted key rows).Pairwise fun a b => key a ≠ key b := List.pairwise_map.1 hnodup
  exact hle.imp₂ (fun _ _ => lt_of_le_of_ne) hne

theorem Increasing.eq_of_mem_iff {l l' : List ρ} (h : Increasing key l) (h' : Increasing key l')
    (hmem : ∀ r, r ∈ l ↔ r ∈ l') : l = l' := by
  have : Std.Irrefl fun a b : ρ => key a < key b := ⟨fun a => lt_irrefl (key a)⟩
  have : Std.Antisymm fun a b : ρ => key a < key b :=
    ⟨fun a b hab hba => absurd hab (lt_asymm hba)⟩
  exact List.Pairwise.eq_of_mem_iff h h' hmem

/-- The rows up to the `n`th are the rows whose key is not beyond that of the `n`th. -/
theorem Increasing.mem_take {l : List ρ} (h : Increasing key l) {n : Nat} {last : ρ}
    (hlast : (l.take n).getLast? = some last) (r : ρ) :
    r ∈ l.take n ↔ r ∈ l ∧ key r ≤ key last := by
  obtain ⟨front, hfront⟩ := List.getLast?_eq_some_iff.1 hlast
  have hsplit : l = front ++ last :: l.drop n := by
    conv_lhs => rw [← List.take_append_drop n l, hfront, List.append_assoc]
    rfl
  have hmem : last ∈ front ++ [last] := by simp
  rw [hsplit] at h
  obtain ⟨-, hdrop, hbefore⟩ := List.pairwise_append.1 h
  rw [hfront]
  constructor
  · intro hr
    refine ⟨List.mem_of_mem_take (hfront ▸ hr), ?_⟩
    rcases List.mem_append.1 hr with hr | hr
    · exact le_of_lt (hbefore r hr last List.mem_cons_self)
    · rw [List.mem_singleton.1 hr]
  · rintro ⟨hr, hle⟩
    rw [hsplit] at hr
    rcases List.mem_append.1 hr with hr | hr
    · exact List.mem_append_left _ hr
    · rcases List.mem_cons.1 hr with rfl | hr
      · exact hmem
      · exact absurd hle (not_le_of_gt (List.rel_of_pairwise_cons hdrop hr))

/-! ## One page -/

/-- A page from a cursor: in order, the rows past the cursor and not past the next one, which is the
key of a row of the page. Without a next cursor nothing is left. -/
structure IsPage (key : ρ → κ) (rows : List ρ) (cursor : Option κ) (items : List ρ)
    (next : Option κ) : Prop where
  increasing : Increasing key items
  mem_iff : ∀ r, r ∈ items ↔ r ∈ rows ∧ (∀ c ∈ cursor, c < key r) ∧ ∀ c ∈ next, key r ≤ c
  next_mem : ∀ c ∈ next, c ∈ items.map key

/-- Fetching one row more than the limit tells whether there is a next page. -/
theorem isPage_take {rows beyond fetched : List ρ} {cursor : Option κ} {limit : Nat}
    (hnodup : (beyond.map key).Nodup) (hlimit : 0 < limit)
    (hbeyond : ∀ r, r ∈ beyond ↔ r ∈ rows ∧ ∀ c ∈ cursor, c < key r)
    (hfetched : fetched = (sorted key beyond).take (limit + 1)) :
    IsPage key rows cursor (fetched.take limit)
      (if limit < fetched.length then (fetched.take limit).getLast?.map key else none) := by
  have hincreasing := increasing_sorted hnodup
  have htake : fetched.take limit = (sorted key beyond).take limit := by
    rw [hfetched, List.take_take, Nat.min_eq_left (Nat.le_succ limit)]
  have hmem : ∀ r, r ∈ sorted key beyond ↔ r ∈ rows ∧ ∀ c ∈ cursor, c < key r := by
    intro r
    rw [mem_sorted, hbeyond]
  rw [htake]
  by_cases hmore : limit < fetched.length
  · rw [if_pos hmore]
    rw [hfetched, List.length_take] at hmore
    cases hlast : ((sorted key beyond).take limit).getLast? with
    | none =>
      have hempty := congrArg List.length (List.getLast?_eq_none_iff.1 hlast)
      rw [List.length_take, List.length_nil] at hempty
      omega
    | some last =>
      refine ⟨hincreasing.sublist (List.take_sublist _ _), ?_, ?_⟩
      · intro r
        rw [hincreasing.mem_take hlast, hmem]
        simp [and_assoc]
      · intro c hc
        cases hc
        exact List.mem_map_of_mem (List.mem_of_getLast? hlast)
  · rw [if_neg hmore]
    have hall : (sorted key beyond).take limit = sorted key beyond := by
      rw [hfetched, List.length_take] at hmore
      exact List.take_of_length_le (by omega)
    rw [hall]
    exact ⟨hincreasing, by simpa using hmem, by simp⟩

/-! ## Following the pages -/

/-- Where a client stands: before the first page, past a key, or past the last page. -/
inductive Position (κ : Type*)
  | start
  | after (key : κ)
  | finished
  deriving DecidableEq, Repr

namespace Position

/-- The cursor of the next request. -/
def cursor : Position κ → Option κ
  | after c => some c
  | _ => none

/-- Where a page leaves the client. -/
def ofNext : Option κ → Position κ
  | some c => after c
  | none => finished

/-- The position in other keys. -/
def map {κ' : Type*} (f : κ → κ') : Position κ → Position κ'
  | start => start
  | after c => after (f c)
  | finished => finished

omit [LinearOrder κ] in
theorem cursor_map {κ' : Type*} (f : κ → κ') (position : Position κ) :
    (position.map f).cursor = position.cursor.map f := by
  cases position <;> rfl

omit [LinearOrder κ] in
theorem map_ofNext {κ' : Type*} (f : κ → κ') (next : Option κ) :
    (ofNext next).map f = ofNext (next.map f) := by
  cases next <;> rfl

/-- The keys that the client has left behind. -/
def Passed (position : Position κ) (k : κ) : Prop :=
  match position with
  | start => False
  | after c => k ≤ c
  | finished => True

instance (position : Position κ) (k : κ) : Decidable (position.Passed k) := by
  unfold Passed
  cases position <;> infer_instance

theorem not_passed_iff {position : Position κ} (h : position ≠ finished) (k : κ) :
    ¬position.Passed k ↔ ∀ c ∈ position.cursor, c < k := by
  cases position with
  | start => simp [Passed, cursor]
  | after c => simp [Passed, cursor]
  | finished => exact absurd rfl h

theorem passed_ofNext (next : Option κ) (k : κ) :
    (ofNext next).Passed k ↔ ∀ c ∈ next, k ≤ c := by
  cases next <;> simp [ofNext, Passed]

theorem lt_of_passed {position : Position κ} {k k' : κ} (h : position.Passed k)
    (h' : ¬position.Passed k') : k < k' := by
  cases position with
  | start => exact h.elim
  | after c => exact lt_of_le_of_lt h (not_le.1 h')
  | finished => exact absurd trivial h'

end Position

/-- What a page returns was not passed before and is passed after it. -/
theorem IsPage.passed {rows items : List ρ} {position : Position κ} {next : Option κ}
    (h : IsPage key rows position.cursor items next) (hne : position ≠ .finished) {r : ρ} :
    r ∈ items ↔ r ∈ rows ∧ ¬position.Passed (key r) ∧ (Position.ofNext next).Passed (key r) := by
  rw [h.mem_iff, Position.not_passed_iff hne, Position.passed_ofNext]

/-- A page leaves behind what was behind. -/
theorem IsPage.passed_mono {rows items : List ρ} {position : Position κ} {next : Option κ}
    (h : IsPage key rows position.cursor items next) (hne : position ≠ .finished) {k : κ}
    (hk : position.Passed k) : (Position.ofNext next).Passed k := by
  rw [Position.passed_ofNext]
  intro c hc
  obtain ⟨r, hr, rfl⟩ := List.mem_map.1 (h.next_mem c hc)
  exact le_of_lt (Position.lt_of_passed hk ((h.passed hne).1 hr).2.1)

/-- The pages a client follows, one for each state of the table it meets, and the rows it gets. -/
inductive Walk (key : ρ → κ) (rows : σ → List ρ) :
    Position κ → List σ → List ρ → Position κ → Prop
  | stop (position : Position κ) : Walk key rows position [] [] position
  | finished (states : List σ) : Walk key rows .finished states [] .finished
  | page {position position' : Position κ} {s : σ} {states : List σ} {items rest : List ρ}
      {next : Option κ} : position ≠ .finished →
      IsPage key (rows s) position.cursor items next →
      Walk key rows (.ofNext next) states rest position' →
      Walk key rows position (s :: states) (items ++ rest) position'

namespace Walk

variable {rows : σ → List ρ} {position position' : Position κ} {states : List σ} {items : List ρ}

theorem passed_mono (h : Walk key rows position states items position') {k : κ}
    (hk : position.Passed k) : position'.Passed k := by
  induction h with
  | stop => exact hk
  | finished => trivial
  | page hne hpage _ ih => exact ih (hpage.passed_mono hne hk)

theorem mem (h : Walk key rows position states items position') {r : ρ} (hr : r ∈ items) :
    ¬position.Passed (key r) ∧ position'.Passed (key r) ∧ ∃ s ∈ states, r ∈ rows s := by
  induction h with
  | stop => cases hr
  | finished => cases hr
  | page hne hpage hrest ih =>
    rcases List.mem_append.1 hr with hr | hr
    · obtain ⟨hmem, hbefore, hafter⟩ := (hpage.passed hne).1 hr
      exact ⟨hbefore, hrest.passed_mono hafter, _, List.mem_cons_self, hmem⟩
    · obtain ⟨hbefore, hafter, s, hs, hmem⟩ := ih hr
      refine ⟨fun hk => hbefore (hpage.passed_mono hne hk), hafter, s, ?_, hmem⟩
      exact List.mem_cons_of_mem _ hs

/-- Nothing is returned twice, and everything in order. -/
theorem increasing (h : Walk key rows position states items position') :
    Increasing key items := by
  induction h with
  | stop => exact List.Pairwise.nil
  | finished => exact List.Pairwise.nil
  | page hne hpage hrest ih =>
    refine List.pairwise_append.2 ⟨hpage.increasing, ih, ?_⟩
    intro a ha b hb
    exact Position.lt_of_passed ((hpage.passed hne).1 ha).2.2 (hrest.mem hb).1

/-- A key that was there each time and has been passed was returned. -/
theorem returned (h : Walk key rows position states items position') {k : κ}
    (hbefore : ¬position.Passed k) (hafter : position'.Passed k)
    (hthere : ∀ s ∈ states, ∃ r ∈ rows s, key r = k) : ∃ r ∈ items, key r = k := by
  induction h with
  | stop => exact absurd hafter hbefore
  | finished => exact absurd trivial hbefore
  | @page _ _ s _ _ _ next hne hpage _ ih =>
    by_cases hnext : (Position.ofNext next).Passed k
    · obtain ⟨r, hr, rfl⟩ := hthere s List.mem_cons_self
      exact ⟨r, List.mem_append_left _ ((hpage.passed hne).2 ⟨hr, hbefore, hnext⟩), rfl⟩
    · obtain ⟨r, hr, hk⟩ := ih hnext hafter fun s hs => hthere s (List.mem_cons_of_mem _ hs)
      exact ⟨r, List.mem_append_right _ hr, hk⟩

theorem of_finished (h : Walk key rows .finished states items position') :
    items = [] ∧ position' = .finished := by
  cases h with
  | stop => exact ⟨rfl, rfl⟩
  | finished => exact ⟨rfl, rfl⟩
  | page hne => exact absurd rfl hne

/-- On a table that does not change, each page leaves fewer rows, so the walk ends. -/
theorem finishes {s : σ} {n : Nat} (h : Walk key rows position (List.replicate n s) items position')
    (hn : ((rows s).filter fun r => ¬position.Passed (key r)).length < n) :
    position' = .finished := by
  induction n generalizing position items with
  | zero => exact absurd hn (Nat.not_lt_zero _)
  | succ n ih =>
    rw [List.replicate_succ] at h
    cases h with
    | finished => rfl
    | @page _ _ _ _ page rest next hne hpage hrest =>
      cases next with
      | none => exact hrest.of_finished.2
      | some c =>
        -- The row of the cursor is passed by this page.
        obtain ⟨last, hlast, hkey⟩ := List.mem_map.1 (hpage.next_mem c rfl)
        obtain ⟨hmem, hbefore, hafter⟩ := (hpage.passed hne).1 hlast
        have hfilter : (rows s).filter (fun r => ¬(Position.after c).Passed (key r)) =
            ((rows s).filter fun r => ¬position.Passed (key r)).filter
              fun r => ¬(Position.after c).Passed (key r) := by
          rw [List.filter_filter]
          refine List.filter_congr fun r _ => ?_
          have hmono := hpage.passed_mono hne (k := key r)
          simp only [Position.ofNext] at hmono
          grind
        have hlt : ((rows s).filter fun r => ¬(Position.after c).Passed (key r)).length <
            ((rows s).filter fun r => ¬position.Passed (key r)).length := by
          rw [hfilter, List.length_filter_lt_length_iff_exists]
          exact ⟨last, List.mem_filter.2 ⟨hmem, decide_eq_true hbefore⟩,
            by simpa [Position.ofNext] using hafter⟩
        exact ih hrest (by
          show ((rows s).filter fun r => ¬(Position.after c).Passed (key r)).length < n
          omega)

/-- On a table that does not change, enough requests return the whole table in order. -/
theorem whole {s : σ} {n : Nat} (h : Walk key rows .start (List.replicate n s) items position')
    (hnodup : ((rows s).map key).Nodup) (hn : (rows s).length < n) :
    items = sorted key (rows s) ∧ position' = .finished := by
  have hfinished : position' = .finished :=
    h.finishes (lt_of_le_of_lt (List.length_filter_le _ _) hn)
  refine ⟨h.increasing.eq_of_mem_iff (increasing_sorted hnodup) fun r => ?_, hfinished⟩
  have hstates : ∀ s' ∈ List.replicate n s, s' = s := fun s' => List.eq_of_mem_replicate
  rw [mem_sorted]
  constructor
  · intro hr
    obtain ⟨-, -, s', hs', hmem⟩ := h.mem hr
    rwa [hstates s' hs'] at hmem
  · intro hr
    have hthere : ∀ s' ∈ List.replicate n s, ∃ r' ∈ rows s', key r' = key r := by
      intro s' hs'
      rw [hstates s' hs']
      exact ⟨r, hr, rfl⟩
    obtain ⟨r', hr', hkey⟩ := h.returned not_false (by rw [hfinished]; trivial) hthere
    obtain ⟨-, -, s', hs', hmem⟩ := h.mem hr'
    rw [hstates s' hs'] at hmem
    rwa [List.inj_on_of_nodup_map hnodup hmem hr hkey] at hr'

end Walk

end Paging
