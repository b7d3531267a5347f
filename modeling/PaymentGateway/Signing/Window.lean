import PaymentGateway.Signing.Outline

/-!
# The rolling-window ceiling

The ceiling is checked against the entries of the window that ends with the time of the request, and
an entry carries the time of its request too; the signature is made when the last approval comes.
The two windows agree as long as requests are signed in the order in which they were made
(`InOrder`): a check then finds no entry that is later than the request it is about, and what was
signed within a window before a signature was requested within a window before its request.

**Theorem (`window_ceiling`).** In a run of whole calls, one after the other, whose checks and
signatures are in order, and which record every signature, the amounts signed within any window sum
to at most the ceiling, and the tracker in memory takes the same decisions.

Between two calls the entries are the signatures (`Booked`), so the total that a check has asked for
bounds what was signed in the window that ends with the signature.
-/

namespace PaymentGateway

namespace Signing

open Concurrent

/-! ## What was signed -/

/-- The signatures, with their times. -/
def payments : List Event → List (SigningRequest × Int)
  | [] => []
  | .signed _ request now :: journal => (request, now) :: payments journal
  | _ :: journal => payments journal

/-- A signature within the window that ends at `t`. -/
def Within (policy : SigningPolicy) (merchantId network : String) (t : Int)
    (p : SigningRequest × Int) : Prop :=
  p.1.merchantId = merchantId ∧ p.1.network = network ∧
    t - policy.windowSeconds * 1000 < p.2 ∧ p.2 ≤ t

instance (policy : SigningPolicy) (merchantId network : String) (t : Int)
    (p : SigningRequest × Int) : Decidable (Within policy merchantId network t p) :=
  inferInstanceAs (Decidable (_ ∧ _))

/-- The amounts signed within the window that ends at `t`. -/
def signedWithin (policy : SigningPolicy) (merchantId network : String) (t : Int)
    (journal : List Event) : Nat :=
  (((payments journal).filter fun p => Within policy merchantId network t p).map (·.1.amount)).sum

/-! ## The runs -/

/-- Whole calls, one after the other. -/
def oneByOne : Rules Request Answer SigningError Outcome Call Moment Empty Shared where
  starts call s := Submitted call s.shared ∧ ∀ last ∈ s.calls.getLast?, last.2.isDone
  live n i := i + 1 = n
  steps _ _ m s := s.clock ≤ m.now
  happens _ _ := True

/-- A check of the ceilings finds no entry later than the request, a signature finds those of the
last window requested within a window before its request, and is recorded. -/
def InOrder (policy : SigningPolicy) (r : Request) (m : Moment) (b : Book) : Prop :=
  match r with
  | .windowTotal merchantId network _ asOf => ∀ entry ∈ b.entries,
      entry.merchantId = merchantId → entry.network = network → entry.occurredAt ≤ asOf
  | .sign request => (∀ p ∈ payments b.journal, p.1.merchantId = request.merchantId →
      p.1.network = request.network → m.now - policy.windowSeconds * 1000 < p.2 →
        request.requestedAt - policy.windowSeconds * 1000 < p.1.requestedAt) ∧
      m.fate.late = false
  | .record .. => m.fate = .answered
  | _ => True

instance (policy : SigningPolicy) (r : Request) (m : Moment) (b : Book) :
    Decidable (InOrder policy r m b) :=
  match r with
  | .windowTotal merchantId network _ asOf => inferInstanceAs (Decidable (∀ entry ∈ b.entries,
      entry.merchantId = merchantId → entry.network = network → entry.occurredAt ≤ asOf))
  | .sign request => inferInstanceAs (Decidable ((∀ p ∈ payments b.journal,
      p.1.merchantId = request.merchantId → p.1.network = request.network →
        m.now - policy.windowSeconds * 1000 < p.2 →
          request.requestedAt - policy.windowSeconds * 1000 < p.1.requestedAt) ∧
      m.fate.late = false))
  | .record .. => inferInstanceAs (Decidable (m.fate = .answered))
  | .get _ | .save _ | .audit _ => isTrue trivial

/-- Whole calls, in order. -/
def inOrder (policy : SigningPolicy) :
    Rules Request Answer SigningError Outcome Call Moment Empty Shared where
  starts := oneByOne.starts
  live := oneByOne.live
  steps _ r m s := s.clock ≤ m.now ∧ InOrder policy r m s.toBook
  happens _ _ := True

instance (call : Call) (s : State) : Decidable (oneByOne.starts call s) :=
  inferInstanceAs (Decidable (_ ∧ _))

instance (move : Move Call Moment Empty) (s : State) : Decidable (oneByOne.meets move s) :=
  have : ∀ n i, Decidable (oneByOne.live n i) := fun n i => inferInstanceAs (Decidable (i + 1 = n))
  have : ∀ i r m s, Decidable (oneByOne.steps i r m s) := fun _ _ m s =>
    inferInstanceAs (Decidable (s.clock ≤ m.now))
  have : ∀ e s, Decidable (oneByOne.happens e s) := fun _ _ => inferInstanceAs (Decidable True)
  inferInstance

instance (policy : SigningPolicy) (move : Move Call Moment Empty) (s : State) :
    Decidable ((inOrder policy).meets move s) :=
  have : ∀ call s, Decidable ((inOrder policy).starts call s) := fun call s =>
    inferInstanceAs (Decidable (oneByOne.starts call s))
  have : ∀ n i, Decidable ((inOrder policy).live n i) := fun n i =>
    inferInstanceAs (Decidable (i + 1 = n))
  have : ∀ i r m s, Decidable ((inOrder policy).steps i r m s) := fun _ r m s =>
    inferInstanceAs (Decidable (s.clock ≤ m.now ∧ InOrder policy r m s.toBook))
  have : ∀ e s, Decidable ((inOrder policy).happens e s) := fun _ _ =>
    inferInstanceAs (Decidable True)
  inferInstance

/-! ## Sums over windows -/

theorem sum_filter_le {α : Type} {p q : α → Prop} [DecidablePred p] [DecidablePred q]
    (f : α → Nat) {l : List α} (h : ∀ x ∈ l, p x → q x) :
    ((l.filter fun x => p x).map f).sum ≤ ((l.filter fun x => q x).map f).sum := by
  induction l with
  | nil => exact Nat.le_refl 0
  | cons x l ih =>
    have hrest := ih fun y hy => h y (List.mem_cons_of_mem _ hy)
    by_cases hp : p x
    · have hq := h x List.mem_cons_self hp
      simpa [hp, hq] using hrest
    · by_cases hq : q x
      · simp only [List.filter_cons, hp, hq, decide_true, decide_false, if_true, List.map_cons,
          List.sum_cons, Bool.false_eq_true, if_false]
        exact hrest.trans (Nat.le_add_left _ _)
      · simpa [hp, hq] using hrest

/-- The entry that a signature is recorded by. -/
def entryOf (request : SigningRequest) : SpendEntry :=
  ⟨request.merchantId, request.network, request.amount, request.requestedAt⟩

/-- The entries are the signatures. -/
def Booked (b : Book) : Prop := b.entries = (payments b.journal).map fun p => entryOf p.1

/-- All but the newest signature is recorded. -/
def Unbooked (request : SigningRequest) (b : Book) : Prop :=
  entryOf request :: b.entries = (payments b.journal).map fun p => entryOf p.1

def WithinCeiling (policy : SigningPolicy) (b : Book) : Prop :=
  ∀ merchantId network t,
    signedWithin policy merchantId network t b.journal ≤ policy.maxAmountPerWindow

/-- What a check of the ceilings has found. -/
structure Affordable (tracker : SpendTracker) (policy : SigningPolicy) (request : SigningRequest)
    (b : Book) : Prop where
  total : tracker.windowTotal b.entries request.merchantId request.network policy.windowSeconds
    request.requestedAt + request.amount ≤ policy.maxAmountPerWindow
  earlier : ∀ entry ∈ b.entries, entry.merchantId = request.merchantId →
    entry.network = request.network → entry.occurredAt ≤ request.requestedAt

/-- The total bounds what is in the window that ends with the signature. -/
theorem signedWithin_le (tracker : SpendTracker) {policy : SigningPolicy} {request : SigningRequest}
    {m : Moment} {b : Book} (hbooked : Booked b) (hearlier : ∀ entry ∈ b.entries,
      entry.merchantId = request.merchantId → entry.network = request.network →
        entry.occurredAt ≤ request.requestedAt)
    (horder : InOrder policy (.sign request) m b) {t : Int} (ht : m.now ≤ t) :
    signedWithin policy request.merchantId request.network t b.journal ≤
      tracker.windowTotal b.entries request.merchantId request.network policy.windowSeconds
        request.requestedAt := by
  have htotal : tracker.windowTotal b.entries request.merchantId request.network
      policy.windowSeconds request.requestedAt =
      (((payments b.journal).filter fun p => tracker.counts request.merchantId request.network
        policy.windowSeconds request.requestedAt (entryOf p.1)).map (·.1.amount)).sum := by
    unfold SpendTracker.windowTotal
    rw [hbooked, List.filter_map, List.map_map]
    rfl
  rw [htotal]
  refine sum_filter_le _ fun p hp hwithin => ?_
  obtain ⟨hmerchant, hnetwork, hafter, -⟩ := hwithin
  have hrequested := horder.1 p hp hmerchant hnetwork (by omega)
  have hentry : entryOf p.1 ∈ b.entries := by
    rw [hbooked]
    exact List.mem_map_of_mem hp
  have hupper := hearlier _ hentry hmerchant hnetwork
  cases tracker with
  | prisma => exact ⟨hmerchant, hnetwork, hrequested, hupper⟩
  | inMemory => exact ⟨hmerchant, hnetwork, hrequested⟩

/-- An affordable signature in order keeps every window within the ceiling. -/
theorem WithinCeiling.sign {tracker : SpendTracker} {policy : SigningPolicy}
    {request : SigningRequest} {m : Moment} {b : Book} (h : WithinCeiling policy b)
    (hbooked : Booked b) (hafford : Affordable tracker policy request b)
    (horder : InOrder policy (.sign request) m b) (i : Nat) :
    WithinCeiling policy { b with journal := .signed i request m.now :: b.journal } := by
  intro merchantId network t
  by_cases hin : Within policy merchantId network t (request, m.now)
  · obtain ⟨rfl, rfl, hafter, ht⟩ := hin
    have hold := signedWithin_le tracker hbooked hafford.earlier horder ht
    have hsum : signedWithin policy request.merchantId request.network t
        (.signed i request m.now :: b.journal) = request.amount +
          signedWithin policy request.merchantId request.network t b.journal := by
      simp only [signedWithin, payments, List.filter_cons, Within, hafter, ht, and_self, decide_true,
        if_true, List.map_cons, List.sum_cons]
    have htotal := hafford.total
    rw [hsum]
    omega
  · have hsum : signedWithin policy merchantId network t (.signed i request m.now :: b.journal) =
        signedWithin policy merchantId network t b.journal := by
      simp only [signedWithin, payments, List.filter_cons, hin, decide_false, Bool.false_eq_true,
        if_false]
    rw [hsum]
    exact h merchantId network t

/-! ## The calls -/

/-- The entries are the signatures, except between a signature and its entry. -/
def windowOutline (tracker : SpendTracker) (policy : SigningPolicy) : Outline where
  begun _ := Booked
  read _ _ := Booked
  checked _ p b := Booked b ∧ Affordable tracker policy p.request b
  ready request b := Booked b ∧ Affordable tracker policy request b
  signed := Unbooked
  recorded _ := Booked
  closed := Booked
  rejected _ := Booked
  failed := Booked

theorem window_holds (tracker : SpendTracker) (policy : SigningPolicy) (i : Nat) :
    (windowOutline tracker policy).Holds tracker policy i (WithinCeiling policy) Eq
      (fun _ _ => True) ((inOrder policy).steps i) where
  refl _ := rfl
  trans _ _ _ := Eq.trans
  guar_refl _ := trivial
  kept_begun _ _ _ hb _ heq := heq ▸ hb
  kept_read _ _ _ _ hb _ heq := heq ▸ hb
  kept_checked _ _ _ _ hb _ heq := heq ▸ hb
  kept_ready _ _ _ hb _ heq := heq ▸ hb
  kept_signed _ _ _ hb _ heq := heq ▸ hb
  kept_recorded _ _ _ hb _ heq := heq ▸ hb
  kept_closed _ _ hb _ heq := heq ▸ hb
  kept_rejected _ _ _ hb _ heq := heq ▸ hb
  kept_failed _ _ hb _ heq := heq ▸ hb
  begun_failed _ _ hb := hb
  read_failed _ _ _ hb := hb
  checked_failed _ _ _ hb := hb.1
  ready_failed _ _ hb := hb.1
  recorded_failed _ _ hb := hb
  closed_failed _ hb := hb
  rejected_failed _ _ hb := hb
  read_closed _ _ _ hb := hb
  get _ _ _ _ hb _ _ := hb
  draft _ _ hb _ := hb
  check _ _ _ _ _ hb hm _ hwindow := ⟨hb, hwindow, hm.2⟩
  submitted _ _ hb _ := hb
  approved _ _ _ _ hb _ _ _ := hb
  sign request m s hI hb hm := by
    refine ⟨hI.sign hb.1 hb.2 hm.2 i, trivial, fun _ => ?_, fun hlate => ?_⟩
    · exact congrArg (entryOf request :: ·) hb.1
    · obtain ⟨e, hlate⟩ := hlate
      have hnot : m.fate.late = false := hm.2.2
      rw [hlate] at hnot
      cases hnot
  record request m s hI hb hm := by
    refine ⟨hI, trivial, fun _ => hb, fun hlate => ?_⟩
    obtain ⟨e, hlate⟩ := hlate
    have hanswered : m.fate = .answered := hm.2
    rw [hlate] at hanswered
    cases hanswered
  record_failed request m s _ hm hfailed := by
    obtain ⟨e, hfailed⟩ := hfailed
    have hanswered : m.fate = .answered := hm.2
    rw [hfailed] at hanswered
    cases hanswered
  saveSigned _ _ _ _ hI hb _ := ⟨hI, trivial, fun _ => hb, fun _ => hb⟩
  savePending _ _ _ hI hb _ := ⟨hI, trivial, fun _ => hb.1, fun _ => hb.1⟩
  saveApproval _ _ _ _ _ hI hb _ _ _ := ⟨hI, trivial, fun _ => hb, fun _ => hb⟩
  saveRejected _ _ _ _ _ _ hI hb _ := ⟨hI, trivial, fun _ => hb, fun _ => hb⟩

/-! ## Runs -/

section Runs

variable {tracker : SpendTracker} {policy : SigningPolicy} {clock : Int} {s : State}

theorem shared_of_no_calls {R : Rules Request Answer SigningError Outcome Call Moment Empty Shared}
    (h : (system tracker policy).Reachable R (start clock) s) (hcalls : s.calls = []) :
    s.shared = start clock := by
  refine System.Reachable.induction (P := fun s => s.calls = [] → s.shared = start clock) h
    (fun _ => rfl) ?_ hcalls
  intro move a b _ _ _ happly hb
  cases move with
  | environment e => cases e
  | start call =>
    cases happly
    simp at hb
  | step i m =>
    obtain ⟨call, r, next, hcall, rfl⟩ := System.apply_step happly
    have hnil : a.calls = [] := by simpa using hb
    rw [hnil] at hcall
    cases hcall

theorem booked_of_post {call : Call} {r : Except SigningError Outcome} {shared : Shared}
    (h : (windowOutline tracker policy).post call r shared) : Booked shared.toBook := by
  cases r with
  | error e => exact h
  | ok outcome => cases call <;> exact h

/-- Between two calls the entries are the signatures. -/
theorem booked_at_start (hreach : (system tracker policy).Reachable (inOrder policy) (start clock) s)
    {inv : Shared → Prop} {rely : Nat → Shared → Shared → Prop}
    {guar : Nat → Call → Request → Shared → Shared → Prop}
    (hgood : Good (system tracker policy) (inOrder policy) inv rely guar
      (fun _ => (windowOutline tracker policy).post) s)
    (hrefl : ∀ i s, rely i s s) (hdone : ∀ last ∈ s.calls.getLast?, last.2.isDone) :
    Booked s.shared.toBook := by
  rcases List.eq_nil_or_concat s.calls with hnil | ⟨before, ⟨call, program⟩, hcalls⟩
  · rw [shared_of_no_calls hreach hnil]
    rfl
  · have hlast : s.calls[before.length]? = some (call, program) := by simp [hcalls]
    have hlive : (inOrder policy).live s.calls.length before.length := by
      show before.length + 1 = s.calls.length
      simp [hcalls]
    cases program with
    | request r next =>
      have hnot := hdone (call, .request r next) (by simp [hcalls])
      cases hnot
    | done r =>
      exact booked_of_post (hgood.calls _ _ _ hlast hlive s.shared hgood.invariant (hrefl _ _))

theorem window_compatible (tracker : SpendTracker) (policy : SigningPolicy) (clock : Int) :
    Compatible (system tracker policy) (inOrder policy) (start clock)
      (fun s => WithinCeiling policy s.toBook) (fun _ s s' => s.toBook = s'.toBook)
      (fun _ _ _ _ _ => True) (fun _ _ s => Booked s.toBook)
      (fun _ => (windowOutline tracker policy).post) where
  lawful i _ := (window_holds tracker policy i).frame.toLawful
  code i call := (window_holds tracker policy i).code call
  live n i hi hlive := by
    have hlast : i + 1 = n + 1 := hlive
    omega
  others n i j _ r s s' hij hi hj := by
    have hi' : i + 1 = n := hi
    have hj' : j + 1 = n := hj
    omega
  environment e := nomatch e
  start call s hreach hgood hcall := by
    refine ⟨hgood.invariant, booked_at_start hreach hgood (fun _ _ => rfl) hcall.2, ?_⟩
    intro i hi hlive
    have hlast : i + 1 = s.calls.length + 1 := hlive
    omega

/-- A check in order adds up the same entries with either tracker. -/
theorem windowTotal_inMemory {merchantId network : String} {windowSeconds asOf : Int} {m : Moment}
    {b : Book} (h : InOrder policy (.windowTotal merchantId network windowSeconds asOf) m b) :
    SpendTracker.inMemory.windowTotal b.entries merchantId network windowSeconds asOf =
      SpendTracker.prisma.windowTotal b.entries merchantId network windowSeconds asOf := by
  unfold SpendTracker.windowTotal
  refine congrArg (fun l : List SpendEntry => (l.map (·.amount)).sum)
    (List.filter_congr fun entry hentry => ?_)
  refine decide_eq_decide.2 ⟨fun hcounts => ?_, fun hcounts => ?_⟩
  · obtain ⟨hmerchant, hnetwork, hafter⟩ := hcounts
    exact ⟨hmerchant, hnetwork, hafter, h entry hentry hmerchant hnetwork⟩
  · obtain ⟨hmerchant, hnetwork, hafter, -⟩ := hcounts
    exact ⟨hmerchant, hnetwork, hafter⟩

theorem perform_inMemory {i : Nat} {r : Request} {m : Moment} {s : Shared}
    (h : InOrder policy r m s.toBook) : perform .inMemory i r m s = perform .prisma i r m s := by
  have hanswer : answer .inMemory m s.toBook r = answer .prisma m s.toBook r := by
    cases r with
    | windowTotal merchantId network windowSeconds asOf => exact windowTotal_inMemory h
    | _ => rfl
  unfold perform
  rw [hanswer]

/-- **The ceiling of every window**, and the decisions of the other tracker. -/
theorem window_ceiling {moves : List (Move Call Moment Empty)}
    (h : (system .prisma policy).machine.AllMeet (inOrder policy).meets moves ⟨start clock, []⟩) :
    (∀ s ∈ (system .prisma policy).machine.log moves [⟨start clock, []⟩], ∀ merchantId network t,
      signedWithin policy merchantId network t s.shared.journal ≤ policy.maxAmountPerWindow) ∧
    (system .inMemory policy).machine.log moves [⟨start clock, []⟩] =
      (system .prisma policy).machine.log moves [⟨start clock, []⟩] := by
  refine ⟨fun s hs merchantId network t => ?_, ?_⟩
  · obtain ⟨rest, hist⟩ := Transactional.Machine.History.log .start (fun _ _ => trivial) h
    have hgood := Good.of_reachable (window_compatible .prisma policy clock)
      (fun _ _ _ => Nat.zero_le _) (hist.reachable hs)
    exact hgood.invariant merchantId network t
  · have hmachine : ∀ move s, (inOrder policy).meets move s →
        (system .inMemory policy).machine.apply move s =
          (system .prisma policy).machine.apply move s :=
      System.apply_congr rfl rfl rfl fun _ _ _ _ hsteps => perform_inMemory hsteps.2
    have hscript : (system .inMemory policy).machine.script =
        (system .prisma policy).machine.script := rfl
    exact Transactional.Machine.log_congr hscript hmachine h

end Runs

namespace Vault

/-- Five coins are signed for, then the three that the window still has. -/
def inTurn : List (Move Call Moment Empty) :=
  .start (.submit (request 1 0)) :: steps 0 3 0 ++
  .start (.approve "req_1" "carol") :: steps 1 3 1 ++
  .start (.approve "req_1" "bob") :: steps 2 7 2 ++
  .start (.submit { request 2 3 with amount := 3 }) :: steps 3 3 3 ++
  .start (.approve "req_2" "carol") :: steps 4 3 4 ++
  .start (.approve "req_2" "bob") :: steps 5 7 5

theorem window_ceiling_inTurn :
    let s := (system .prisma policy).after inTurn (start 0)
    (signatures "req_1" s.shared.journal).length = 1 ∧
      (signatures "req_2" s.shared.journal).length = 1 ∧
      signedWithin policy "m" "ethereum" 5 s.shared.journal = 8 ∧
      signedWithin policy "m" "ethereum" 5 s.shared.journal ≤ policy.maxAmountPerWindow := by
  have hmeets : (system .prisma policy).machine.AllMeet (inOrder policy).meets inTurn
      ⟨start 0, []⟩ := by decide +kernel
  exact ⟨by decide +kernel, by decide +kernel, by decide +kernel,
    (window_ceiling hmeets).1 _ (System.after_mem _ _) "m" "ethereum" 5⟩

/-- Both requests get their last approval a minute after the first was made. -/
def delayed : List (Move Call Moment Empty) :=
  .start (.submit (request 1 0)) :: steps 0 3 0 ++
  .start (.approve "req_1" "carol") :: steps 1 3 1 ++
  .start (.submit (request 2 60001)) :: steps 2 3 60001 ++
  .start (.approve "req_2" "carol") :: steps 3 3 60001 ++
  .start (.approve "req_1" "bob") :: steps 4 7 60002 ++
  .start (.approve "req_2" "bob") :: steps 5 7 60003

/-- Two signatures within two milliseconds, for more than a window may have. -/
theorem window_exceeded : ∃ s : State,
    (system .prisma policy).Reachable oneByOne (start 0) s ∧
      policy.maxAmountPerWindow < signedWithin policy "m" "ethereum" 60003 s.shared.journal :=
  ⟨(system .prisma policy).after delayed (start 0),
    System.reachable_after (by decide +kernel), by decide +kernel⟩

end Vault

end Signing

end PaymentGateway
