import PaymentGateway.Monitor.Scanner

/-!
# What a scan keeps

Rules for what a scan says about the cursors and about what the scanner has done, whatever happens
between its awaits. Such an assertion (`Assertion`) does not mind what others commit, because
nobody else writes the cursors; so a request changes it only through its own note or its own
write. `Keeps inv pre x post` adds an invariant that holds even when the scan stops half-way.

`Does m x db a db'` is about a scan that nothing disturbs: in moments like `m` it returns `a` and
turns `db` into `db'`.
-/

namespace PaymentGateway

open Keyed Transactional Await

namespace Scan

abbrev Cursors := Table ChainCursor (·.network)

/-- About the cursors and the calls, at a time. -/
abbrev Assertion := Nat → Cursors → List Call → Prop

variable {α β : Type} {feed : Nat → Moment} {inv : Cursors → List Call → Prop}
  {pre pre' : Assertion} {post post' : α → Assertion} {after : β → Assertion}

/-- The invariant is kept in any case; a scan that succeeds establishes its postcondition. -/
def Keeps (feed : Nat → Moment) (inv : Cursors → List Call → Prop) (pre : Assertion) (x : Scan α)
    (post : α → Assertion) : Prop :=
  Triple feed (fun n s => inv s.db.cursors s.calls ∧ pre n s.db.cursors s.calls) x
    (Upto (fun s => inv s.db.cursors s.calls) fun a n s => post a n s.db.cursors s.calls)

theorem Keeps.mono {x : Scan α} (h : Keeps feed inv pre x post)
    (hpre : ∀ n c l, inv c l → pre' n c l → pre n c l)
    (hpost : ∀ a n c l, post a n c l → post' a n c l) : Keeps feed inv pre' x post' :=
  Triple.mono h (fun _ _ hs => ⟨hs.1, hpre _ _ _ hs.1 hs.2⟩)
    fun _ _ _ hs => ⟨hs.1, fun a ha => hpost _ _ _ _ (hs.2 a ha)⟩

theorem Keeps.pure {a : α} (h : ∀ n c l, inv c l → pre n c l → post a n c l) :
    Keeps feed inv pre (Pure.pure a) post :=
  Triple.pure_upto fun _ _ hs => ⟨hs.1, h _ _ _ hs.1 hs.2⟩

theorem Keeps.bind {x : Scan α} {f : α → Scan β} (hx : Keeps feed inv pre x post)
    (hf : ∀ a, Keeps feed inv (post a) (f a) after) : Keeps feed inv pre (x >>= f) after :=
  Triple.bind_upto hx hf

theorem Keeps.forM {ι : Type} {f : ι → Scan Unit} {l : List ι} (done : List ι → Assertion)
    (hf : ∀ before i after, l = before ++ i :: after →
      Keeps feed inv (done before) (f i) fun _ => done (before ++ [i])) :
    Keeps feed inv (done []) (l.forM f) fun _ => done l :=
  Triple.forM_upto hf

/-! ## Requests -/

variable {moment : Moment} {db : Db}

theorem Keeps.ask {question : BlockchainAdapter → Except Error α} {note : α → List Call}
    (h : ∀ n c l a, inv c l → pre n c l → question (feed n).adapter = .ok a →
      inv c (note a ++ l) ∧ post a (n + 1) c (note a ++ l)) :
    Keeps feed inv pre (ask question note) post := by
  refine Triple.step fun n s ⟨hinv, hpre⟩ => ?_
  rw [← (feed n).others_cursors s.db] at hinv hpre
  dsimp only
  split_ifs with hstopped
  · exact ⟨hinv, fun a ha => by cases ha⟩
  · cases hanswer : question (feed n).adapter with
    | error e => exact ⟨hinv, fun a ha => by cases ha⟩
    | ok a =>
      obtain ⟨hinv', hpost⟩ := h n _ _ a hinv hpre hanswer
      exact ⟨hinv', fun b hb => by cases hb; exact hpost⟩

theorem Keeps.read {query : Moment → Db → α}
    (h : ∀ n db l, inv db.cursors l → pre n db.cursors l →
      post (query (feed n) db) (n + 1) db.cursors l) :
    Keeps feed inv pre (read query) post := by
  refine Triple.step fun n s ⟨hinv, hpre⟩ => ?_
  rw [← (feed n).others_cursors s.db] at hinv hpre
  dsimp only
  split_ifs with hstopped
  · exact ⟨hinv, fun a ha => by cases ha⟩
  · exact ⟨hinv, fun b hb => by cases hb; exact h n _ _ hinv hpre⟩

theorem Keeps.write {f : Moment → Db → Except Error Db} {note : List Call} {post : Unit → Assertion}
    (h : ∀ n db db' l, inv db.cursors l → pre n db.cursors l → f (feed n) db = .ok db' →
      inv db'.cursors (note ++ l) ∧ post () (n + 1) db'.cursors (note ++ l)) :
    Keeps feed inv pre (write f note) post := by
  refine Triple.step fun n s ⟨hinv, hpre⟩ => ?_
  rw [← (feed n).others_cursors s.db] at hinv hpre
  dsimp only
  by_cases hstopped : (feed n).stopped = some 0
  · rw [if_pos hstopped]
    exact ⟨hinv, fun a ha => by cases ha⟩
  · rw [if_neg hstopped]
    cases hwrite : f (feed n) ((feed n).others s.db) with
    | error e => exact ⟨hinv, fun a ha => by cases ha⟩
    | ok db' =>
      obtain ⟨hinv', hpost⟩ := h n _ db' _ hinv hpre hwrite
      exact ⟨hinv', fun _ _ => hpost⟩

/-- What a prefix of the commits leaves is one of them, or what was there. -/
theorem getLastD_take_cursors {committed : List Db} (k : Nat)
    (h : ∀ db' ∈ committed, db'.cursors = db.cursors) :
    ((committed.take k).getLastD db).cursors = db.cursors := by
  rcases List.eq_nil_or_concat (committed.take k) with hnil | ⟨l, a, hl⟩
  · rw [hnil]
    rfl
  · have ha : a ∈ committed := by
      apply List.mem_of_mem_take (i := k)
      rw [hl]
      simp
    rw [hl]
    simpa using h a ha

theorem final_cursors {x : Execution Db Error} (h : ∀ db' ∈ x.committed, db'.cursors = db.cursors) :
    (x.final db).cursors = db.cursors := by
  have htake := getLastD_take_cursors x.committed.length h
  rwa [List.take_length] at htake

theorem Keeps.service {f : Moment → Db → Execution Db Error} {note : List Call}
    {post : Unit → Assertion}
    (hf : ∀ m db, ∀ db' ∈ (f m db).committed, db'.cursors = db.cursors)
    (h : ∀ n c l, inv c l → pre n c l → inv c (note ++ l) ∧ post () (n + 1) c (note ++ l)) :
    Keeps feed inv pre (service f note) post := by
  refine Triple.step fun n s ⟨hinv, hpre⟩ => ?_
  rw [← (feed n).others_cursors s.db] at hinv hpre
  have hkept := hf (feed n) ((feed n).others s.db)
  have hfinal := final_cursors hkept
  dsimp only
  split
  · next commits hstopped =>
    have htake := getLastD_take_cursors commits hkept
    refine ⟨?_, fun a ha => by cases ha⟩
    show inv (Db.cursors (List.getLastD _ _)) s.calls
    rw [htake]
    exact hinv
  · split
    · refine ⟨?_, fun a ha => by cases ha⟩
      show inv (Db.cursors (Execution.final _ _)) s.calls
      rw [hfinal]
      exact hinv
    · obtain ⟨hinv', hpost⟩ := h n _ _ hinv hpre
      have hboth : inv ((f (feed n) ((feed n).others s.db)).final
          ((feed n).others s.db)).cursors (note ++ s.calls) ∧ post () (n + 1)
            ((f (feed n) ((feed n).others s.db)).final
              ((feed n).others s.db)).cursors (note ++ s.calls) := by
        rw [hfinal]
        exact ⟨hinv', hpost⟩
      exact ⟨hboth.1, fun _ _ => hboth.2⟩

/-! ## Undisturbed -/

/-- The scan succeeds, and this is what it does. -/
def Does (m : Moment) (x : Scan α) (db : Db) (a : α) (db' : Db) : Prop :=
  Triple (fun _ => m) (fun _ s => s.db = db) x (Returns fun b _ s => b = a ∧ s.db = db')

variable {m : Moment} {db' db'' : Db} {adapter : BlockchainAdapter} {now : Int} {a : α} {b : β}

theorem Does.pure : Does m (Pure.pure a) db a db :=
  Triple.pure_returns fun _ _ h => ⟨rfl, h⟩

theorem Does.bind {x : Scan α} {f : α → Scan β} (hx : Does m x db a db')
    (hf : Does m (f a) db' b db'') : Does m (x >>= f) db b db'' := by
  refine Triple.bind_returns hx fun a' n s ⟨ha, hdb⟩ => ?_
  subst ha
  exact hf n s hdb

theorem Does.state {x : Scan α} (h : Does m x db a db') :
    (x (fun _ => m) 0 ⟨db, []⟩).state.db = db' := by
  obtain ⟨_, -, -, hdb⟩ := h 0 ⟨db, []⟩ rfl
  exact hdb

theorem Does.ask {question : BlockchainAdapter → Except Error α} {note : α → List Call}
    (h : question adapter = .ok a) :
    Does (.undisturbed adapter now) (ask question note) db a db := by
  refine Triple.step fun n s hs => ?_
  dsimp only [Moment.undisturbed]
  rw [h]
  exact ⟨a, rfl, rfl, hs⟩

theorem Does.service {f : Moment → Db → Execution Db Error} {note : List Call}
    (h : (f (.undisturbed adapter now) db).error = none) :
    Does (.undisturbed adapter now) (service f note) db ()
      ((f (.undisturbed adapter now) db).final db) := by
  refine Triple.step fun n s hs => ?_
  subst hs
  unfold Moment.undisturbed at *
  dsimp only [id]
  rw [h]
  exact ⟨(), rfl, rfl, rfl⟩

end Scan

end PaymentGateway
