import Mathlib.Logic.Function.Basic
import PaymentGateway.Shared.ExchangeRate
import PaymentGateway.Shared.Network

/-!
# The exchange rate service

Rates come from the providers in order, through a cache with a short life and a map of fetches that
concurrent callers share. A step is what runs between two awaits: the first part of a call, the
answer of a provider, the return of a fetch to one of its callers. Each step reads the clock afresh,
as often as the code does, and nothing is assumed of what it reads.

**Theorem (`run_safe`).** However calls, answers and returns interleave, a rate that is returned for
two different assets was no older than the limit when it was last looked at; that look was not
before the return of the call that began the fetch; a pair has one fetch under way at most; and a
failed fetch is out of the way once that call has returned. The invariant ties each entry of the map
to a call that has not returned (`Inv.owned`, `Inv.held`).
-/

namespace PaymentGateway

namespace ExchangeRateService

/-! ## Errors -/

inductive RateError
  | unavailable (base quote : String) (attempts : List (String × String))
  | stale (base quote : String) (ageMs maxAgeMs : Int)
  deriving DecidableEq, Repr

/-- Whole seconds, halves upward. -/
def inSeconds (ms : Int) : Int := (ms + 500) / 1000

def RateError.message : RateError → String
  | .unavailable base quote _ =>
    "no exchange rate provider could price " ++ base ++ "/" ++ quote
  | .stale base quote ageMs maxAgeMs =>
    "exchange rate for " ++ base ++ "/" ++ quote ++ " is " ++ toString (inSeconds ageMs) ++
      "s old, exceeding the " ++ toString (inSeconds maxAgeMs) ++ "s limit"

/-- What a provider throws: an error of its own, anything else, or the error of another service. -/
inductive ProviderFailure
  | provider (message : String) (retryable : Bool)
  | other (message : String)
  | stale (base quote : String) (ageMs maxAgeMs : Int)
  deriving DecidableEq, Repr

def ProviderFailure.message : ProviderFailure → String
  | .provider message _ => message
  | .other message => message
  | .stale base quote ageMs maxAgeMs => (RateError.stale base quote ageMs maxAgeMs).message

/-! ## The service -/

/-- The providers by their names; what they answer is up to the events. -/
structure ExchangeRateServiceOptions where
  providers : List String
  maxAgeMs : Int := 120000
  cacheTtlMs : Int := 30000
  nonempty : providers.length ≠ 0

structure CacheEntry where
  rate : ExchangeRate
  cachedAt : Int

/-- Where `fetchFresh` is: it awaits a provider, or it has settled. -/
inductive Stage
  | pending (provider : Nat) (attempts : List (String × String))
  | settled (result : Except RateError ExchangeRate) (decidedAt : Int)

def Stage.isPending : Stage → Bool
  | .pending .. => true
  | .settled .. => false

structure Fetch where
  base : String
  quote : String
  /-- The call that began it, and that takes it out of the map. -/
  creator : Nat
  stage : Stage

/-- How a call ended. The reading is the one that freshness was decided by. -/
structure Outcome where
  result : Except RateError ExchangeRate
  decidedAt : Int
  moment : Nat

structure Call where
  base : String
  quote : String
  fetch : Option Nat
  startedAt : Nat
  outcome : Option Outcome

/-- Fetches and calls are numbered as they come, and moments count the steps. -/
structure State where
  cache : String → Option CacheEntry
  inFlight : String → Option Nat
  fetches : List Fetch
  calls : List Call
  moment : Nat

def initial : State := ⟨fun _ => none, fun _ => none, [], [], 0⟩

def keyOf (base quote : String) : String := base ++ "/" ++ quote

def Fetch.cacheKey (fetch : Fetch) : String := keyOf fetch.base fetch.quote

/-- One of an asset against itself, as the constructor makes it. -/
def identityRate (asset : String) (observedAt : Int) : ExchangeRate :=
  ⟨asset, asset, 10 ^ 18, "identity", observedAt, by decide⟩

theorem identityRate_eq (asset : String) (observedAt : Int) :
    ExchangeRate.identity asset "identity" observedAt = .ok (identityRate asset observedAt) := rfl

variable (o : ExchangeRateServiceOptions)

def assertFresh (rate : ExchangeRate) (base quote : String) (now : Int) : Except RateError Unit :=
  let ageMs := now - rate.observedAt
  if ageMs > o.maxAgeMs then .error (.stale base quote ageMs o.maxAgeMs) else .ok ()

/-- The part of a call before its first await. The clock is read for the age of the cache entry and
then for that of its rate; the identity rate bears the time of the wall clock. -/
def getRate (baseAsset quoteAsset : String) (wall cacheNow freshNow : Int) (s : State) : State :=
  let base := toUpperCase baseAsset
  let quote := toUpperCase quoteAsset
  let begin (fetch : Option Nat) (outcome : Option Outcome) : State :=
    { s with calls := s.calls ++ [⟨base, quote, fetch, s.moment, outcome⟩] }
  if base = quote then
    begin none (some ⟨.ok (identityRate base wall), cacheNow, s.moment⟩)
  else
    match (s.cache (keyOf base quote)).filter fun e => cacheNow - e.cachedAt < o.cacheTtlMs with
    | some cached =>
      let result := (assertFresh o cached.rate base quote freshNow).map fun _ => cached.rate
      begin none (some ⟨result, freshNow, s.moment⟩)
    | none =>
      match s.inFlight (keyOf base quote) with
      | some existing => begin (some existing) none
      | none =>
        { begin (some s.fetches.length) none with
          fetches := s.fetches ++ [⟨base, quote, s.calls.length, .pending 0 []⟩]
          inFlight := Function.update s.inFlight (keyOf base quote) (some s.fetches.length) }

/-- What `fetchFresh` makes of an answer: a rate that is too old ends it, any other failure goes on
to the next provider. -/
def afterAnswer (fetch : Fetch) (provider : Nat) (attempts : List (String × String))
    (answer : Except ProviderFailure ExchangeRate) (freshNow : Int) : Stage :=
  match answer with
  | .ok rate =>
    .settled ((assertFresh o rate fetch.base fetch.quote freshNow).map fun _ => rate) freshNow
  | .error (.stale base quote ageMs maxAgeMs) =>
    .settled (.error (.stale base quote ageMs maxAgeMs)) freshNow
  | .error failure =>
    let attempts := attempts ++ [(o.providers.getD provider "", failure.message)]
    if provider + 1 < o.providers.length then .pending (provider + 1) attempts
    else .settled (.error (.unavailable fetch.base fetch.quote attempts)) freshNow

/-- A rate that settles its fetch is cached. -/
def receive (f : Nat) (answer : Except ProviderFailure ExchangeRate) (freshNow cacheNow : Int)
    (s : State) : State :=
  match s.fetches[f]? with
  | none => s
  | some fetch =>
    match fetch.stage with
    | .settled .. => s
    | .pending provider attempts =>
      let stage := afterAnswer o fetch provider attempts answer freshNow
      { s with
        fetches := s.fetches.set f { fetch with stage }
        cache := match stage with
          | .settled (.ok rate) _ =>
            Function.update s.cache fetch.cacheKey (some ⟨rate, cacheNow⟩)
          | _ => s.cache }

/-- A fetch returns to a caller. The one that began it takes it out of the map. -/
def resume (i : Nat) (s : State) : State :=
  match s.calls[i]? with
  | none => s
  | some call =>
    match call.outcome, call.fetch.bind (s.fetches[·]?) with
    | none, some fetch =>
      match fetch.stage with
      | .pending .. => s
      | .settled result decidedAt =>
        { s with
          calls := s.calls.set i { call with outcome := some ⟨result, decidedAt, s.moment⟩ }
          inFlight := if fetch.creator = i then Function.update s.inFlight fetch.cacheKey none
            else s.inFlight }
    | _, _ => s

def clearCache (s : State) : State := { s with cache := fun _ => none }

/-! ## Runs -/

inductive Event
  | call (baseAsset quoteAsset : String) (wall cacheNow freshNow : Int)
  | answer (fetch : Nat) (answer : Except ProviderFailure ExchangeRate) (freshNow cacheNow : Int)
  | resume (call : Nat)
  | clearCache

/-- An event that cannot occur, such as a second answer, changes nothing. -/
def act : Event → State → State
  | .call baseAsset quoteAsset wall cacheNow freshNow =>
    getRate o baseAsset quoteAsset wall cacheNow freshNow
  | .answer fetch answer freshNow cacheNow => receive o fetch answer freshNow cacheNow
  | .resume call => ExchangeRateService.resume call
  | .clearCache => ExchangeRateService.clearCache

def step (s : State) (e : Event) : State := { act o e s with moment := s.moment + 1 }

def run (events : List Event) : State := events.foldl (step o) initial

/-! ## What a call comes to -/

variable {o}

theorem assertFresh_map {rate rate' : ExchangeRate} {base quote : String} {now : Int}
    (h : (assertFresh o rate base quote now).map (fun _ => rate) = .ok rate') :
    now - rate'.observedAt ≤ o.maxAgeMs := by
  unfold assertFresh at h
  dsimp only at h
  split_ifs at h with hold
  · cases h
  · cases h
    exact not_lt.1 hold

/-- A look at a rate of two assets that found it fresh enough. -/
def Fresh (o : ExchangeRateServiceOptions) (base quote : String)
    (result : Except RateError ExchangeRate) (decidedAt : Int) : Prop :=
  ∀ rate, result = .ok rate → base ≠ quote → decidedAt - rate.observedAt ≤ o.maxAgeMs

/-- A call ends at once, or joins a fetch, or begins one where none is under way. -/
theorem getRate_cases {baseAsset quoteAsset base quote : String} {wall cacheNow freshNow : Int}
    {s s' : State} (hbase : toUpperCase baseAsset = base) (hquote : toUpperCase quoteAsset = quote)
    (h : getRate o baseAsset quoteAsset wall cacheNow freshNow s = s') :
    (∃ x : Outcome, Fresh o base quote x.result x.decidedAt ∧
      s' = { s with calls := s.calls ++ [⟨base, quote, none, s.moment, some x⟩] }) ∨
    (∃ f, s.inFlight (keyOf base quote) = some f ∧
      s' = { s with calls := s.calls ++ [⟨base, quote, some f, s.moment, none⟩] }) ∨
    (s.inFlight (keyOf base quote) = none ∧
      s' = { s with
        calls := s.calls ++ [⟨base, quote, some s.fetches.length, s.moment, none⟩]
        fetches := s.fetches ++ [⟨base, quote, s.calls.length, .pending 0 []⟩]
        inFlight := Function.update s.inFlight (keyOf base quote) (some s.fetches.length) }) := by
  unfold getRate at h
  simp only [hbase, hquote] at h
  split_ifs at h with hsame
  · exact Or.inl ⟨_, fun _ _ hne => absurd hsame hne, h.symm⟩
  · split at h
    · next cached _ =>
      exact Or.inl ⟨_, fun rate hrate _ => assertFresh_map hrate, h.symm⟩
    · split at h
      · next f hflight => exact Or.inr (Or.inl ⟨f, hflight, h.symm⟩)
      · next hflight => exact Or.inr (Or.inr ⟨hflight, h.symm⟩)

/-- An answer moves the stage of one pending fetch on. -/
theorem receive_cases {f : Nat} {answer : Except ProviderFailure ExchangeRate}
    {freshNow cacheNow : Int} {s s' : State} (h : receive o f answer freshNow cacheNow s = s') :
    s' = s ∨ ∃ fetch stage cache, s.fetches[f]? = some fetch ∧ fetch.stage.isPending = true ∧
      (∀ rate t, stage = .settled (.ok rate) t → t - rate.observedAt ≤ o.maxAgeMs) ∧
      s' = { s with fetches := s.fetches.set f { fetch with stage }, cache } := by
  unfold receive at h
  split at h
  · exact Or.inl h.symm
  · next fetch hfetch =>
    split at h
    · exact Or.inl h.symm
    · next provider attempts hstage =>
      refine Or.inr ⟨fetch, _, _, hfetch, by rw [hstage]; rfl, ?_, h.symm⟩
      intro rate t hsettled
      unfold afterAnswer at hsettled
      split at hsettled
      · obtain ⟨hrate, rfl⟩ := Stage.settled.inj hsettled
        exact assertFresh_map hrate
      · cases (Stage.settled.inj hsettled).1
      · dsimp only at hsettled
        split_ifs at hsettled
        cases (Stage.settled.inj hsettled).1

/-- A settled fetch returns to one call that has not ended. -/
theorem resume_cases {i : Nat} {s s' : State} (h : resume i s = s') :
    s' = s ∨ ∃ call f fetch result t, s.calls[i]? = some call ∧ call.outcome = none ∧
      call.fetch = some f ∧ s.fetches[f]? = some fetch ∧ fetch.stage = .settled result t ∧
      s' = { s with
        calls := s.calls.set i { call with outcome := some ⟨result, t, s.moment⟩ }
        inFlight := if fetch.creator = i then Function.update s.inFlight fetch.cacheKey none
          else s.inFlight } := by
  unfold resume at h
  split at h
  · exact Or.inl h.symm
  · next call hcall =>
    split at h
    · next fetch hout hfetch =>
      obtain ⟨f, hf, hfetch⟩ := Option.bind_eq_some_iff.1 hfetch
      split at h
      · exact Or.inl h.symm
      · next result t hstage =>
        exact Or.inr ⟨call, f, fetch, result, t, hcall, hout, hf, hfetch, hstage, h.symm⟩
    · exact Or.inl h.symm

/-! ## The invariant -/

/-- An entry of the map is a fetch whose first caller has not returned, and each such fetch has its
entry. What has settled well was fresh then, and so was what calls ended with. -/
structure Inv (o : ExchangeRateServiceOptions) (s : State) : Prop where
  owned : ∀ (key : String) (f : Nat), s.inFlight key = some f → ∃ (F : Fetch) (k : Call),
    s.fetches[f]? = some F ∧ F.cacheKey = key ∧ s.calls[F.creator]? = some k ∧ k.outcome = none
  held : ∀ (f : Nat) (F : Fetch) (k : Call), s.fetches[f]? = some F →
    s.calls[F.creator]? = some k → k.outcome = none → s.inFlight F.cacheKey = some f
  created : ∀ (f : Nat) (F : Fetch), s.fetches[f]? = some F →
    ∃ k : Call, s.calls[F.creator]? = some k ∧ k.fetch = some f
  awaited : ∀ (i : Nat) (c : Call) (f : Nat), s.calls[i]? = some c → c.fetch = some f →
    ∃ F : Fetch, s.fetches[f]? = some F ∧ (c.outcome ≠ none → F.stage.isPending = false)
  settled : ∀ (f : Nat) (F : Fetch) (rate : ExchangeRate) (t : Int), s.fetches[f]? = some F →
    F.stage = .settled (.ok rate) t → t - rate.observedAt ≤ o.maxAgeMs
  ended : ∀ (i : Nat) (c : Call) (x : Outcome), s.calls[i]? = some c → c.outcome = some x →
    Fresh o c.base c.quote x.result x.decidedAt
  started : ∀ (i : Nat) (c : Call), s.calls[i]? = some c → c.startedAt < s.moment
  ordered : ∀ (i : Nat) (c : Call) (f : Nat) (F : Fetch) (k : Call) (x : Outcome),
    s.calls[i]? = some c → c.fetch = some f → s.fetches[f]? = some F →
    s.calls[F.creator]? = some k → k.outcome = some x → c.startedAt < x.moment

theorem Inv.initial : Inv o initial := by
  constructor <;> simp [ExchangeRateService.initial]

theorem getElem?_concat {α : Type} {l : List α} {a b : α} {i : Nat} :
    (l ++ [a])[i]? = some b ↔ l[i]? = some b ∨ (i = l.length ∧ b = a) := by
  rcases lt_trichotomy i l.length with hlt | rfl | hgt
  · rw [List.getElem?_append_left hlt]
    simp [hlt.ne]
  · simp [eq_comm]
  · rw [List.getElem?_eq_none (by simp; omega), List.getElem?_eq_none hgt.le]
    simp [hgt.ne']

theorem getElem?_set_of_some {α : Type} {l : List α} {a a' b : α} {i j : Nat} (h : l[i]? = some a) :
    (l.set i a')[j]? = some b ↔ (j = i ∧ b = a') ∨ (j ≠ i ∧ l[j]? = some b) := by
  have hlt : i < l.length := (List.getElem?_eq_some_iff.1 h).1
  rw [List.getElem?_set]
  by_cases hj : i = j
  · subst hj
    simp [hlt, eq_comm]
  · simp [hj, Ne.symm hj]

/-- The first caller of a fetch is one of the calls there were. -/
theorem Inv.creator_of_append {s : State} (h : Inv o s) {c k : Call} {f : Nat} {F : Fetch}
    (hF : s.fetches[f]? = some F) (hk : (s.calls ++ [c])[F.creator]? = some k) :
    s.calls[F.creator]? = some k := by
  obtain ⟨k', hk', -⟩ := h.created f F hF
  rcases getElem?_concat.1 hk with hold | ⟨hnew, -⟩
  · exact hold
  · rw [hnew, List.getElem?_eq_none le_rfl] at hk'
    cases hk'

/-- A call that ends at once, or that joins a fetch of the map. -/
theorem Inv.append {s : State} (h : Inv o s) {c : Call} (hstarted : c.startedAt = s.moment)
    (hended : ∀ x, c.outcome = some x → Fresh o c.base c.quote x.result x.decidedAt)
    (hjoined : ∀ f, c.fetch = some f → c.outcome = none ∧ ∃ key, s.inFlight key = some f) :
    Inv o { s with calls := s.calls ++ [c], moment := s.moment + 1 } := by
  constructor
  · intro key f hf
    obtain ⟨F, k, hF, hkey, hk, hout⟩ := h.owned key f hf
    exact ⟨F, k, hF, hkey, getElem?_concat.2 (Or.inl hk), hout⟩
  · intro f F k hF hk hout
    exact h.held f F k hF (h.creator_of_append hF hk) hout
  · intro f F hF
    obtain ⟨k, hk, hfetch⟩ := h.created f F hF
    exact ⟨k, getElem?_concat.2 (Or.inl hk), hfetch⟩
  · intro i c' f hc hf
    rcases getElem?_concat.1 hc with hold | ⟨-, rfl⟩
    · exact h.awaited i c' f hold hf
    · obtain ⟨hout, key, hkey⟩ := hjoined f hf
      obtain ⟨F, -, hF, -⟩ := h.owned key f hkey
      exact ⟨F, hF, fun hne => absurd hout hne⟩
  · exact h.settled
  · intro i c' x hc hx
    rcases getElem?_concat.1 hc with hold | ⟨-, rfl⟩
    · exact h.ended i c' x hold hx
    · exact hended x hx
  · intro i c' hc
    rcases getElem?_concat.1 hc with hold | ⟨-, rfl⟩
    · exact Nat.lt_succ_of_lt (h.started i c' hold)
    · rw [hstarted]
      exact Nat.lt_succ_self _
  · intro i c' f F k x hc hf hF hk hx
    have hold := h.creator_of_append hF hk
    rcases getElem?_concat.1 hc with hcall | ⟨-, rfl⟩
    · exact h.ordered i c' f F k x hcall hf hF hold hx
    · -- The fetch it joins is in the map, so its first caller has not returned.
      obtain ⟨-, key, hkey⟩ := hjoined f hf
      obtain ⟨F', k', hF', -, hk', hout⟩ := h.owned key f hkey
      obtain rfl : F = F' := Option.some.inj (hF.symm.trans hF')
      obtain rfl : k = k' := Option.some.inj (hold.symm.trans hk')
      rw [hout] at hx
      cases hx

/-- A call that begins a fetch, for a pair that has none in the map. -/
theorem Inv.begin {s : State} (h : Inv o s) {base quote : String}
    (hnone : s.inFlight (keyOf base quote) = none) :
    Inv o { s with
      calls := s.calls ++ [⟨base, quote, some s.fetches.length, s.moment, none⟩]
      fetches := s.fetches ++ [⟨base, quote, s.calls.length, .pending 0 []⟩]
      inFlight := Function.update s.inFlight (keyOf base quote) (some s.fetches.length)
      moment := s.moment + 1 } := by
  constructor
  · intro key f hf
    dsimp only at hf
    by_cases hkey : key = keyOf base quote
    · subst hkey
      rw [Function.update_self, Option.some.injEq] at hf
      exact ⟨_, _, getElem?_concat.2 (Or.inr ⟨hf.symm, rfl⟩), rfl,
        getElem?_concat.2 (Or.inr ⟨rfl, rfl⟩), rfl⟩
    · rw [Function.update_of_ne hkey] at hf
      obtain ⟨F, k, hF, hFkey, hk, hout⟩ := h.owned key f hf
      exact ⟨F, k, getElem?_concat.2 (Or.inl hF), hFkey, getElem?_concat.2 (Or.inl hk), hout⟩
  · intro f F k hF hk hout
    rcases getElem?_concat.1 hF with hold | ⟨rfl, rfl⟩
    · have hheld := h.held f F k hold (h.creator_of_append hold hk) hout
      have hkey : F.cacheKey ≠ keyOf base quote := by
        intro hsame
        rw [hsame, hnone] at hheld
        cases hheld
      exact (Function.update_of_ne hkey ..).trans hheld
    · exact Function.update_self ..
  · intro f F hF
    rcases getElem?_concat.1 hF with hold | ⟨rfl, rfl⟩
    · obtain ⟨k, hk, hfetch⟩ := h.created f F hold
      exact ⟨k, getElem?_concat.2 (Or.inl hk), hfetch⟩
    · exact ⟨_, getElem?_concat.2 (Or.inr ⟨rfl, rfl⟩), rfl⟩
  · intro i c f hc hf
    rcases getElem?_concat.1 hc with hold | ⟨-, rfl⟩
    · obtain ⟨F, hF, hdone⟩ := h.awaited i c f hold hf
      exact ⟨F, getElem?_concat.2 (Or.inl hF), hdone⟩
    · exact ⟨_, getElem?_concat.2 (Or.inr ⟨(Option.some.inj hf).symm, rfl⟩), fun hne => absurd rfl hne⟩
  · intro f F rate t hF hstage
    rcases getElem?_concat.1 hF with hold | ⟨-, rfl⟩
    · exact h.settled f F rate t hold hstage
    · cases hstage
  · intro i c x hc hx
    rcases getElem?_concat.1 hc with hold | ⟨-, rfl⟩
    · exact h.ended i c x hold hx
    · cases hx
  · intro i c hc
    rcases getElem?_concat.1 hc with hold | ⟨-, rfl⟩
    · exact Nat.lt_succ_of_lt (h.started i c hold)
    · exact Nat.lt_succ_self _
  · intro i c f F k x hc hf hF hk hx
    rcases getElem?_concat.1 hF with hold | ⟨rfl, rfl⟩
    · rcases getElem?_concat.1 hc with hcall | ⟨-, rfl⟩
      · exact h.ordered i c f F k x hcall hf hold (h.creator_of_append hold hk) hx
      · rw [← Option.some.inj hf, List.getElem?_eq_none le_rfl] at hold
        cases hold
    · -- The call that has just begun the fetch has not ended.
      rcases getElem?_concat.1 hk with hcall | ⟨-, rfl⟩
      · rw [List.getElem?_eq_none le_rfl] at hcall
        cases hcall
      · cases hx

/-- An answer leaves the callers of its fetch as they are. -/
theorem Inv.receive {s : State} (h : Inv o s) {f : Nat} {fetch : Fetch} {stage : Stage}
    {cache : String → Option CacheEntry} (hfetch : s.fetches[f]? = some fetch)
    (hpending : fetch.stage.isPending = true)
    (hfresh : ∀ rate t, stage = .settled (.ok rate) t → t - rate.observedAt ≤ o.maxAgeMs) :
    Inv o { s with
      fetches := s.fetches.set f { fetch with stage }, cache, moment := s.moment + 1 } := by
  -- A fetch of the new state is one of the old, but for its stage.
  have hback : ∀ {g : Nat} {G : Fetch}, (s.fetches.set f { fetch with stage })[g]? = some G →
      ∃ G', s.fetches[g]? = some G' ∧ G'.creator = G.creator ∧ G'.cacheKey = G.cacheKey := by
    intro g G hG
    rcases (getElem?_set_of_some hfetch).1 hG with ⟨rfl, rfl⟩ | ⟨-, hold⟩
    · exact ⟨fetch, hfetch, rfl, rfl⟩
    · exact ⟨G, hold, rfl, rfl⟩
  have hforth : ∀ {g : Nat} {G : Fetch}, s.fetches[g]? = some G →
      ∃ G', (s.fetches.set f { fetch with stage })[g]? = some G' ∧ G'.creator = G.creator ∧
        G'.cacheKey = G.cacheKey ∧ (G.stage.isPending = false → G'.stage.isPending = false) := by
    intro g G hG
    by_cases hg : g = f
    · subst hg
      obtain rfl : fetch = G := Option.some.inj (hfetch.symm.trans hG)
      refine ⟨_, (getElem?_set_of_some hfetch).2 (Or.inl ⟨rfl, rfl⟩), rfl, rfl, fun hdone => ?_⟩
      rw [hpending] at hdone
      cases hdone
    · exact ⟨G, (getElem?_set_of_some hfetch).2 (Or.inr ⟨hg, hG⟩), rfl, rfl, id⟩
  constructor
  · intro key g hg
    obtain ⟨G, k, hG, hkey, hk, hout⟩ := h.owned key g hg
    obtain ⟨G', hG', hcreator, hsame, -⟩ := hforth hG
    exact ⟨G', k, hG', hsame.trans hkey, hcreator ▸ hk, hout⟩
  · intro g G k hG hk hout
    obtain ⟨G', hG', hcreator, hsame⟩ := hback hG
    rw [← hsame]
    exact h.held g G' k hG' (hcreator ▸ hk) hout
  · intro g G hG
    obtain ⟨G', hG', hcreator, -⟩ := hback hG
    rw [← hcreator]
    exact h.created g G' hG'
  · intro i c g hc hg
    obtain ⟨G, hG, hdone⟩ := h.awaited i c g hc hg
    obtain ⟨G', hG', -, -, hkept⟩ := hforth hG
    exact ⟨G', hG', fun hne => hkept (hdone hne)⟩
  · intro g G rate t hG hstage
    rcases (getElem?_set_of_some hfetch).1 hG with ⟨-, rfl⟩ | ⟨-, hold⟩
    · exact hfresh rate t hstage
    · exact h.settled g G rate t hold hstage
  · exact h.ended
  · exact fun i c hc => Nat.lt_succ_of_lt (h.started i c hc)
  · intro i c g G k x hc hg hG hk hx
    obtain ⟨G', hG', hcreator, -⟩ := hback hG
    exact h.ordered i c g G' k x hc hg hG' (hcreator ▸ hk) hx

/-- A settled fetch returns to a caller, and leaves the map with the one that began it. -/
theorem Inv.resume {s : State} (h : Inv o s) {i f : Nat} {call : Call} {fetch : Fetch}
    {result : Except RateError ExchangeRate} {t : Int} (hcall : s.calls[i]? = some call)
    (hout : call.outcome = none) (hf : call.fetch = some f) (hfetch : s.fetches[f]? = some fetch)
    (hstage : fetch.stage = .settled result t) :
    Inv o { s with
      calls := s.calls.set i { call with outcome := some ⟨result, t, s.moment⟩ }
      inFlight := if fetch.creator = i then Function.update s.inFlight fetch.cacheKey none
        else s.inFlight
      moment := s.moment + 1 } := by
  have honly : ∀ {g : Nat} {G : Fetch}, s.fetches[g]? = some G → G.creator = i → g = f := by
    intro g G hG hcreator
    obtain ⟨k, hk, hg⟩ := h.created g G hG
    rw [hcreator, hcall] at hk
    obtain rfl := Option.some.inj hk
    exact Option.some.inj (hg.symm.trans hf)
  have hsame : ∀ {j : Nat} {c : Call}, j ≠ i → s.calls[j]? = some c →
      (s.calls.set i { call with outcome := some ⟨result, t, s.moment⟩ })[j]? = some c :=
    fun hj hc => (getElem?_set_of_some hcall).2 (Or.inr ⟨hj, hc⟩)
  constructor
  · intro key g hg
    dsimp only at hg
    -- Only the entry of this fetch can have the returning call for its first caller.
    have hold : s.inFlight key = some g ∧ (g = f → fetch.creator ≠ i) := by
      by_cases hcreator : fetch.creator = i
      · rw [if_pos hcreator] at hg
        by_cases hkey : key = fetch.cacheKey
        · rw [hkey, Function.update_self] at hg
          cases hg
        · rw [Function.update_of_ne hkey] at hg
          refine ⟨hg, fun hgf => ?_⟩
          obtain ⟨G, k, hG, hGkey, -⟩ := h.owned key g hg
          rw [hgf, hfetch] at hG
          rw [Option.some.inj hG] at hkey
          exact absurd hGkey.symm hkey
      · rw [if_neg hcreator] at hg
        exact ⟨hg, fun _ => hcreator⟩
    obtain ⟨G, k, hG, hkey, hk, hnone⟩ := h.owned key g hold.1
    have hne : G.creator ≠ i := by
      intro hcreator
      have hgf := honly hG hcreator
      rw [hgf, hfetch] at hG
      rw [← Option.some.inj hG] at hcreator
      exact hold.2 hgf hcreator
    exact ⟨G, k, hG, hkey, hsame hne hk, hnone⟩
  · intro g G k hG hk hnone
    rcases (getElem?_set_of_some hcall).1 hk with ⟨-, rfl⟩ | ⟨hne, hk⟩
    · cases hnone
    · have hheld := h.held g G k hG hk hnone
      dsimp only
      by_cases hcreator : fetch.creator = i
      · have hfheld := h.held f fetch call hfetch (hcreator ▸ hcall) hout
        have hkey : G.cacheKey ≠ fetch.cacheKey := by
          intro hkey
          rw [hkey, hfheld] at hheld
          rw [← Option.some.inj hheld, hfetch] at hG
          exact hne (Option.some.inj hG ▸ hcreator)
        rw [if_pos hcreator, Function.update_of_ne hkey]
        exact hheld
      · rw [if_neg hcreator]
        exact hheld
  · intro g G hG
    obtain ⟨k, hk, hg⟩ := h.created g G hG
    by_cases hcreator : G.creator = i
    · rw [hcreator, hcall] at hk
      obtain rfl := Option.some.inj hk
      exact ⟨_, (getElem?_set_of_some hcall).2 (Or.inl ⟨hcreator, rfl⟩), hg⟩
    · exact ⟨k, hsame hcreator hk, hg⟩
  · intro j c g hc hg
    rcases (getElem?_set_of_some hcall).1 hc with ⟨-, rfl⟩ | ⟨-, hc⟩
    · obtain rfl : f = g := Option.some.inj (hf.symm.trans hg)
      refine ⟨fetch, hfetch, fun _ => ?_⟩
      rw [hstage]
      rfl
    · exact h.awaited j c g hc hg
  · exact h.settled
  · intro j c x hc hx
    rcases (getElem?_set_of_some hcall).1 hc with ⟨-, rfl⟩ | ⟨-, hc⟩
    · cases hx
      intro rate hrate _
      exact h.settled f fetch rate t hfetch (hstage.trans (congrArg (Stage.settled · t) hrate))
    · exact h.ended j c x hc hx
  · intro j c hc
    rcases (getElem?_set_of_some hcall).1 hc with ⟨-, rfl⟩ | ⟨-, hc⟩
    · exact Nat.lt_succ_of_lt (h.started i call hcall)
    · exact Nat.lt_succ_of_lt (h.started j c hc)
  · intro j c g G k x hc hg hG hk hx
    have hold : ∃ c', s.calls[j]? = some c' ∧ c'.fetch = c.fetch ∧ c'.startedAt = c.startedAt := by
      rcases (getElem?_set_of_some hcall).1 hc with ⟨rfl, rfl⟩ | ⟨-, hc⟩
      · exact ⟨call, hcall, rfl, rfl⟩
      · exact ⟨c, hc, rfl, rfl⟩
    obtain ⟨c', hc', hfetch', hstarted⟩ := hold
    rw [← hstarted]
    rcases (getElem?_set_of_some hcall).1 hk with ⟨-, rfl⟩ | ⟨-, hk⟩
    · cases hx
      exact h.started j c' hc'
    · exact h.ordered j c' g G k x hc' (hfetch'.trans hg) hG hk hx

theorem Inv.idle {s : State} (h : Inv o s) (cache : String → Option CacheEntry) :
    Inv o { s with cache, moment := s.moment + 1 } :=
  ⟨h.owned, h.held, h.created, h.awaited, h.settled, h.ended,
    fun i c hc => Nat.lt_succ_of_lt (h.started i c hc), h.ordered⟩

theorem Inv.step {s : State} (h : Inv o s) (e : Event) : Inv o (step o s e) := by
  unfold ExchangeRateService.step
  cases e with
  | call baseAsset quoteAsset wall cacheNow freshNow =>
    rcases getRate_cases (o := o) rfl rfl rfl with ⟨x, hfresh, hs⟩ | ⟨f, hflight, hs⟩ | ⟨hnone, hs⟩
    all_goals rw [show act o (.call baseAsset quoteAsset wall cacheNow freshNow) s = _ from hs]
    · refine h.append rfl (fun x' hx => ?_) fun f hf => by cases hf
      cases hx
      exact hfresh
    · refine h.append rfl (fun x hx => by cases hx) fun f' hf => ?_
      cases hf
      exact ⟨rfl, _, hflight⟩
    · exact h.begin hnone
  | answer f answer freshNow cacheNow =>
    rcases receive_cases (o := o) rfl with hs | ⟨fetch, stage, cache, hfetch, hpending, hfresh, hs⟩
    all_goals rw [show act o (.answer f answer freshNow cacheNow) s = _ from hs]
    · exact h.idle s.cache
    · exact h.receive hfetch hpending hfresh
  | resume i =>
    rcases resume_cases rfl with hs | ⟨call, f, fetch, result, t, hcall, hout, hf, hfetch, hstage, hs⟩
    all_goals rw [show act o (.resume i) s = _ from hs]
    · exact h.idle s.cache
    · exact h.resume hcall hout hf hfetch hstage
  | clearCache => exact h.idle fun _ => none

theorem Inv.run (events : List Event) : Inv o (run o events) := by
  unfold ExchangeRateService.run
  induction events using List.reverseRecOn with
  | nil => exact Inv.initial
  | append_singleton events e ih =>
    rw [List.foldl_append]
    exact ih.step e

/-! ## What holds in every run -/

/-- What the calls, the fetches and the map promise. -/
structure Safe (o : ExchangeRateServiceOptions) (s : State) : Prop where
  /-- A rate of two assets was within the limit when the call, or the fetch it shared, decided. -/
  fresh : ∀ c ∈ s.calls, ∀ x rate, c.outcome = some x → x.result = .ok rate → c.base ≠ c.quote →
    x.decidedAt - rate.observedAt ≤ o.maxAgeMs
  /-- A call shares a fetch only until the call that began it has returned. -/
  current : ∀ c ∈ s.calls, ∀ (f : Nat) (F : Fetch) (k : Call) (x : Outcome), c.fetch = some f →
    s.fetches[f]? = some F → s.calls[F.creator]? = some k → k.outcome = some x →
    c.startedAt < x.moment
  /-- One fetch for a pair. -/
  single : ∀ (f g : Nat) (F G : Fetch), s.fetches[f]? = some F → s.fetches[g]? = some G →
    F.stage.isPending = true → G.stage.isPending = true → F.base = G.base → F.quote = G.quote →
    f = g
  /-- The call that began a failed fetch takes it out of the map, as soon as it runs. -/
  unblocked : ∀ (f : Nat) (F : Fetch) (e : RateError) (t : Int), s.fetches[f]? = some F →
    F.stage = .settled (.error e) t → s.inFlight F.cacheKey = some f →
    (step o s (.resume F.creator)).inFlight F.cacheKey = none
  /-- Without an entry, a call that the cache does not serve asks the first provider again. -/
  restarted : ∀ baseAsset quoteAsset wall cacheNow freshNow,
    let base := toUpperCase baseAsset
    let quote := toUpperCase quoteAsset
    base ≠ quote → s.inFlight (keyOf base quote) = none →
    (∀ e, s.cache (keyOf base quote) = some e → o.cacheTtlMs ≤ cacheNow - e.cachedAt) →
    (step o s (.call baseAsset quoteAsset wall cacheNow freshNow)).fetches =
      s.fetches ++ [⟨base, quote, s.calls.length, .pending 0 []⟩]

theorem Inv.pending_held {s : State} (h : Inv o s) {f : Nat} {F : Fetch}
    (hF : s.fetches[f]? = some F) (hpending : F.stage.isPending = true) :
    s.inFlight F.cacheKey = some f := by
  obtain ⟨k, hk, hfetch⟩ := h.created f F hF
  refine h.held f F k hF hk ?_
  by_contra hout
  obtain ⟨F', hF', hdone⟩ := h.awaited F.creator k f hk hfetch
  obtain rfl : F = F' := Option.some.inj (hF.symm.trans hF')
  rw [hdone hout] at hpending
  cases hpending

theorem Inv.resume_clears {s : State} (h : Inv o s) {f : Nat} {F : Fetch}
    {result : Except RateError ExchangeRate} {t : Int} (hF : s.fetches[f]? = some F)
    (hstage : F.stage = .settled result t) (hflight : s.inFlight F.cacheKey = some f) :
    (ExchangeRateService.step o s (.resume F.creator)).inFlight F.cacheKey = none := by
  obtain ⟨F', k, hF', -, hk, hout⟩ := h.owned F.cacheKey f hflight
  obtain rfl : F = F' := Option.some.inj (hF.symm.trans hF')
  obtain ⟨k', hk', hfetch⟩ := h.created f F hF
  obtain rfl : k = k' := Option.some.inj (hk.symm.trans hk')
  show (ExchangeRateService.resume F.creator s).inFlight F.cacheKey = none
  unfold ExchangeRateService.resume
  rw [hk]
  simp only [hout, hfetch, Option.bind_some, hF, hstage, if_pos]
  exact Function.update_self ..

/-- **Stale rates are not used, fetches of a pair do not overlap, and failures do not block.** -/
theorem run_safe (o : ExchangeRateServiceOptions) (events : List Event) : Safe o (run o events) := by
  have h := Inv.run (o := o) events
  constructor
  · intro c hc x rate hx hrate hne
    obtain ⟨i, hi⟩ := List.mem_iff_getElem?.1 hc
    exact h.ended i c x hi hx rate hrate hne
  · intro c hc f F k x hf hF hk hx
    obtain ⟨i, hi⟩ := List.mem_iff_getElem?.1 hc
    exact h.ordered i c f F k x hi hf hF hk hx
  · intro f g F G hF hG hFpending hGpending hbase hquote
    have hkey : F.cacheKey = G.cacheKey := by rw [Fetch.cacheKey, hbase, hquote]; rfl
    have hheld := h.pending_held hF hFpending
    rw [hkey, h.pending_held hG hGpending] at hheld
    exact (Option.some.inj hheld).symm
  · intro f F e t hF hstage hflight
    exact h.resume_clears hF hstage hflight
  · intro baseAsset quoteAsset wall cacheNow freshNow base quote hne hnone hcache
    have hmiss : ((run o events).cache (keyOf base quote)).filter (fun e =>
        cacheNow - e.cachedAt < o.cacheTtlMs) = none := by
      rw [Option.filter_eq_none_iff]
      intro e he
      simpa using hcache e he
    show (getRate o baseAsset quoteAsset wall cacheNow freshNow (run o events)).fetches = _
    unfold getRate
    dsimp only
    rw [if_neg hne, hmiss, hnone]

end ExchangeRateService

/-! ## A rate that is not looked at -/

namespace Shop

open ExchangeRateService

def rateOptions : ExchangeRateServiceOptions where
  providers := ["coingecko", "binance"]
  nonempty := by decide

/-- The clock of the service is ten minutes ahead of the one that the identity rate bears. -/
def aheadOfTime : List Event := [.call "USDT" "USDT" 0 600000 600000]

theorem identity_unchecked : ¬∀ (events : List Event), ∀ c ∈ (run rateOptions events).calls,
    ∀ x rate, c.outcome = some x → x.result = .ok rate →
      x.decidedAt - rate.observedAt ≤ rateOptions.maxAgeMs := by
  intro h
  have hage := h aheadOfTime _ List.mem_cons_self ⟨.ok (identityRate "USDT" 0), 600000, 0⟩
    (identityRate "USDT" 0) (by rfl) rfl
  exact absurd hage (by decide)

end Shop

end PaymentGateway
