import Mathlib.Algebra.Order.Floor.Ring
import Mathlib.Data.Rat.Floor
import Mathlib.Logic.Function.Basic
import PaymentGateway.Lib.Binary64
import PaymentGateway.Lib.FixedWindow
import PaymentGateway.Shared.Error

/-!
# The rate limiter

`consume` runs one script in Redis: it counts the call, gives a counter that it has just created the
time of a window to live, and reads how long the counter still has. The call is allowed while the
count is within the limit.

The window is given in seconds and becomes milliseconds by a product in binary64. Where that is not
a whole number, Redis refuses the expiry after it has counted, and the counter stays for good.

**Theorem (`rate_limits_iff`).** For a limit and a window whose milliseconds are below `2 ^ 53`: the
limits hold (`LimitsHold`) over any calls in the order of their times exactly when the limit is at
least one call and the milliseconds are a whole number. The limits are these. At most the limit is
allowed between the first call of a window and its end; at most twice the limit is allowed in any
interval as long as the window; a counter ends a window after one of the calls; and a call that is
refused is allowed when it is made again as many seconds later as it was told, without another call
in between.

Redis runs the script as one step at one time, and a key is gone from its expiry on. A counter that
the script leaves is then a window of `FixedWindow` (`consume_eq`, `consume_other`), and the calls of
the key are admitted as there (`allowedTimes_eq`).
-/

namespace PaymentGateway

open FixedWindow

/-! ## Redis -/

/-- A number under a key. Without an expiry the key stays. -/
structure Counter where
  value : Nat
  expireAt : Option Int
  deriving DecidableEq, Repr

namespace Redis

abbrev Store := String → Option Counter

/-- What a command finds under a key. -/
def find (store : Store) (now : Int) (key : String) : Option Counter :=
  (store key).filter fun counter => counter.expireAt.all (now < ·)

/-- `INCR`: an expired key counts from one again. -/
def incr (store : Store) (now : Int) (key : String) : Store × Nat :=
  let counter := find store now key
  let value := counter.elim 0 (·.value) + 1
  (Function.update store key (some ⟨value, counter.bind (·.expireAt)⟩), value)

/-- `PEXPIRE`: a time to live that is not positive deletes the key. -/
def pexpire (store : Store) (now : Int) (key : String) (ms : ℚ) : Except Error Store :=
  if ms.den ≠ 1 then .error (.payment "ERR value is not an integer or out of range")
  else if ms ≤ 0 then .ok (Function.update store key none)
  else
    .ok (Function.update store key ((find store now key).map fun counter =>
      { counter with expireAt := some (now + ms.num) }))

/-- `PTTL`: -2 without the key, -1 without an expiry. -/
def pttl (store : Store) (now : Int) (key : String) : Int :=
  match find store now key with
  | none => -2
  | some counter => counter.expireAt.elim (-1) (· - now)

/-- `FIXED_WINDOW_SCRIPT`. What it has written stays when a later command fails. -/
def fixedWindowScript (store : Store) (now : Int) (key : String) (windowMs : ℚ) :
    Store × Except Error (Nat × Int) :=
  let (store, current) := incr store now key
  if current = 1 then
    match pexpire store now key windowMs with
    | .error e => (store, .error e)
    | .ok store => (store, .ok (current, pttl store now key))
  else (store, .ok (current, pttl store now key))

end Redis

open Redis

/-! ## The limiter -/

structure RateLimitResult where
  allowed : Bool
  remaining : ℚ
  retryAfterSeconds : Int
  deriving DecidableEq, Repr

/-- A call of `consume` and the time at which Redis runs its script. -/
structure Consume where
  time : Int
  key : String
  limit : ℚ
  windowSeconds : ℚ
  deriving DecidableEq

namespace RateLimiter

def consume (store : Store) (call : Consume) : Store × Except Error RateLimitResult :=
  let windowMs := Binary64.nearest (call.windowSeconds * 1000)
  let (store, reply) := fixedWindowScript store call.time call.key windowMs
  (store, reply.map fun (current, ttlMs) =>
    let leftMs := if 0 < ttlMs then (ttlMs : ℚ) else windowMs
    { allowed := decide ((current : ℚ) ≤ call.limit)
      remaining := max 0 (Binary64.nearest (call.limit - current))
      retryAfterSeconds := max 1 ⌈Binary64.nearest (leftMs / 1000)⌉ })

/-- What Redis holds after calls. -/
def consumeAll : Store → List Consume → Store
  | store, [] => store
  | store, call :: calls => consumeAll (consume store call).1 calls

/-- The times of the calls of a key that are allowed. -/
def allowedTimes (key : String) : Store → List Consume → List Int
  | _, [] => []
  | store, call :: calls =>
    let (store, reply) := consume store call
    if call.key = key ∧ reply.toOption.any (·.allowed) = true then
      call.time :: allowedTimes key store calls
    else allowedTimes key store calls

/-- Calls in the order of their times, where those of a key have one limit and one window. -/
structure Uses (key : String) (limit windowSeconds : ℚ) (calls : List Consume) : Prop where
  ordered : calls.Pairwise (·.time ≤ ·.time)
  limit_eq : ∀ call ∈ calls, call.key = key → call.limit = limit
  window_eq : ∀ call ∈ calls, call.key = key → call.windowSeconds = windowSeconds

/-- Redis before the first call. -/
def fresh : Store := fun _ => none

/-- The limits over calls. A retry counts from the seconds that the refused call was told. -/
structure LimitsHold (key : String) (limit windowSeconds : ℚ) (calls : List Consume) : Prop where
  window : ∀ before start after, calls = before ++ start :: after → start.key = key →
    find (consumeAll fresh before) start.time key = none → ∀ expiry,
    (consumeAll fresh (before ++ [start]) key).bind (·.expireAt) = some expiry →
    (((allowedTimes key (consumeAll fresh before) (start :: after)).filter
      fun time => time < expiry).length : ℚ) ≤ limit
  interval : ∀ first : ℚ, (((allowedTimes key fresh calls).filter
    fun time : Int => first ≤ time ∧ time ≤ first + windowSeconds * 1000).length : ℚ) ≤ 2 * limit
  expires : ∀ before after, calls = before ++ after → ∀ counter,
    consumeAll fresh before key = some counter → ∃ call ∈ before, call.key = key ∧
      ∃ expiry : Int, counter.expireAt = some expiry ∧
        expiry = call.time + Binary64.nearest (windowSeconds * 1000)
  retry : ∀ before refused between retry after,
    calls = before ++ refused :: (between ++ retry :: after) → refused.key = key →
    retry.key = key → (∀ call ∈ between, call.key ≠ key) → ∀ result,
    (consume (consumeAll fresh before) refused).2 = .ok result → result.allowed = false →
    refused.time + 1000 * result.retryAfterSeconds ≤ retry.time →
    ∃ result', (consume (consumeAll fresh (before ++ refused :: between)) retry).2 = .ok result' ∧
      result'.allowed = true

/-! ## One call -/

/-- The counter of a window. -/
def counterOf (w : Window) : Counter := ⟨w.count, some w.expiry⟩

variable {store : Store} {key : String} {limit windowSeconds : ℚ} {window : Nat}
  {w : Option Window} {call : Consume} {calls : List Consume}

/-- The key holds the counter of the window, in which a call has been counted. -/
structure Holds (store : Store) (key : String) (w : Option Window) : Prop where
  counter_eq : store key = w.map counterOf
  counted : ∀ w' ∈ w, 1 ≤ w'.count

theorem Holds.find_eq (h : Holds store key w) (now : Int) :
    find store now key = (w.filter (now < ·.expiry)).map counterOf := by
  rw [find, h.counter_eq]
  cases w with
  | none => rfl
  | some w => by_cases hopen : now < w.expiry <;> simp [Option.filter, counterOf, hopen]

theorem find_update (now : Int) (counter : Counter) (hopen : counter.expireAt.all (now < ·) = true) :
    find (Function.update store key (some counter)) now key = some counter := by
  rw [find, Function.update_self, Option.filter_some, if_pos hopen]

/-- The script moves the key on to the next window. -/
theorem fixedWindowScript_eq (hwindow : 0 < window) (h : Holds store key w) (now : Int) :
    fixedWindowScript store now key window =
      (Function.update store key (some (counterOf (enter window w now))),
        .ok ((enter window w now).count, (enter window w now).expiry - now)) := by
  have hfind := h.find_eq now
  unfold fixedWindowScript enter
  cases hopen : w.filter (now < ·.expiry) with
  | some w' =>
    obtain ⟨hw', hlt⟩ := Option.filter_eq_some_iff.1 hopen
    have hcount := h.counted w' hw'
    have hne : w'.count + 1 ≠ 1 := by omega
    have hincr : incr store now key =
        (Function.update store key (some ⟨w'.count + 1, some w'.expiry⟩), w'.count + 1) := by
      rw [incr, hfind, hopen]
      rfl
    rw [hincr]
    dsimp only
    rw [if_neg hne, pttl, find_update now ⟨w'.count + 1, some w'.expiry⟩ (by simpa using hlt)]
    rfl
  | none =>
    have hincr : incr store now key = (Function.update store key (some ⟨1, none⟩), 1) := by
      rw [incr, hfind, hopen]
      rfl
    have hpos : ¬(window : ℚ) ≤ 0 := by
      rw [not_le]
      exact_mod_cast hwindow
    have hexpire : pexpire (Function.update store key (some ⟨1, none⟩)) now key window =
        .ok (Function.update store key (some ⟨1, some (now + window)⟩)) := by
      unfold pexpire
      rw [if_neg (by simp), if_neg hpos, find_update now ⟨1, none⟩ rfl]
      simp
    rw [hincr]
    dsimp only
    rw [if_pos rfl, hexpire]
    dsimp only
    rw [pttl, find_update now ⟨1, some (now + window)⟩ (by simpa using hwindow)]
    rfl

/-- A call of the key enters the next window, and replies with its count and what is left of it. -/
theorem consume_eq (hwindow : 0 < window)
    (hms : Binary64.nearest (call.windowSeconds * 1000) = window) (h : Holds store call.key w) :
    consume store call = (Function.update store call.key
        (some (counterOf (enter window w call.time))),
      .ok ⟨decide (((enter window w call.time).count : ℚ) ≤ call.limit),
        max 0 (Binary64.nearest (call.limit - (enter window w call.time).count)),
        max 1 ⌈Binary64.nearest
          ((((enter window w call.time).expiry - call.time : Int) : ℚ) / 1000)⌉⟩) := by
  have hopen : call.time < (enter window w call.time).expiry :=
    lt_expiry (by exact_mod_cast hwindow) w
  unfold consume
  dsimp only
  rw [hms, fixedWindowScript_eq hwindow h]
  dsimp only [Except.map]
  rw [if_pos (Int.sub_pos.2 hopen)]

theorem Holds.consume (hwindow : 0 < window)
    (hms : Binary64.nearest (call.windowSeconds * 1000) = window) (h : Holds store call.key w) :
    Holds (consume store call).1 call.key (some (enter window w call.time)) := by
  rw [consume_eq hwindow hms h]
  refine ⟨by simp, fun w' hw' => ?_⟩
  cases hw'
  exact one_le_count w

/-- The script writes under its own key. -/
theorem consume_other (h : call.key ≠ key) : (RateLimiter.consume store call).1 key = store key := by
  unfold RateLimiter.consume fixedWindowScript incr pexpire
  dsimp only
  split_ifs <;> simp [Function.update_of_ne h.symm]

/-! ## Many calls -/

/-- The times of the calls of a key. -/
def timesOf (key : String) (calls : List Consume) : List Int :=
  (calls.filter fun call => call.key = key).map (·.time)

theorem Uses.tail (h : Uses key limit windowSeconds (call :: calls)) :
    Uses key limit windowSeconds calls where
  ordered := (List.pairwise_cons.1 h.ordered).2
  limit_eq := fun c hc => h.limit_eq c (List.mem_cons_of_mem _ hc)
  window_eq := fun c hc => h.window_eq c (List.mem_cons_of_mem _ hc)

theorem Uses.timesOf_ordered (h : Uses key limit windowSeconds calls) :
    (timesOf key calls).Pairwise (· ≤ ·) :=
  List.pairwise_map.2 (h.ordered.sublist List.filter_sublist)

/-- The calls of a key are admitted as in its windows, and leave the window after them. -/
theorem allowedTimes_eq (hlimit : 0 ≤ limit) (hwindow : 0 < window)
    (hms : Binary64.nearest (windowSeconds * 1000) = window)
    (h : Uses key limit windowSeconds calls) (hholds : Holds store key w) :
    allowedTimes key store calls = admitted ⌊limit⌋₊ window w (timesOf key calls) ∧
      Holds (consumeAll store calls) key (enterAll window w (timesOf key calls)) := by
  induction calls generalizing store w with
  | nil => exact ⟨rfl, hholds⟩
  | cons call calls ih =>
    by_cases hkey : call.key = key
    · subst hkey
      have hcall : Binary64.nearest (call.windowSeconds * 1000) = window := by
        rw [h.window_eq call List.mem_cons_self rfl, hms]
      have hcallLimit := h.limit_eq call List.mem_cons_self rfl
      have hnext := hholds.consume hwindow hcall
      obtain ⟨hallowed, hafter⟩ := ih h.tail hnext
      have htimes : timesOf call.key (call :: calls) = call.time :: timesOf call.key calls := by
        simp [timesOf]
      rw [htimes, consumeAll, enterAll]
      refine ⟨?_, hafter⟩
      rw [allowedTimes, admitted, ← hallowed, consume_eq hwindow hcall hholds]
      simp [hcallLimit, Except.toOption, Nat.le_floor_iff hlimit]
    · have hother : Holds (RateLimiter.consume store call).1 key w := by
        refine ⟨?_, hholds.counted⟩
        rw [consume_other hkey, hholds.counter_eq]
      obtain ⟨hallowed, hafter⟩ := ih h.tail hother
      have htimes : timesOf key (call :: calls) = timesOf key calls := by
        simp [timesOf, hkey]
      rw [htimes, consumeAll]
      refine ⟨?_, hafter⟩
      rw [allowedTimes, ← hallowed]
      simp [hkey]

theorem consumeAll_append (before after : List Consume) :
    consumeAll store (before ++ after) = consumeAll (consumeAll store before) after := by
  induction before generalizing store with
  | nil => rfl
  | cons call before ih => exact ih

theorem holds_fresh (key : String) : Holds fresh key none := ⟨rfl, nofun⟩

theorem Uses.append_left {before after : List Consume}
    (h : Uses key limit windowSeconds (before ++ after)) :
    Uses key limit windowSeconds before where
  ordered := (List.pairwise_append.1 h.ordered).1
  limit_eq := fun c hc => h.limit_eq c (List.mem_append_left _ hc)
  window_eq := fun c hc => h.window_eq c (List.mem_append_left _ hc)

theorem Uses.append_right {before after : List Consume}
    (h : Uses key limit windowSeconds (before ++ after)) :
    Uses key limit windowSeconds after where
  ordered := (List.pairwise_append.1 h.ordered).2.1
  limit_eq := fun c hc => h.limit_eq c (List.mem_append_right _ hc)
  window_eq := fun c hc => h.window_eq c (List.mem_append_right _ hc)

theorem timesOf_eq_nil (h : ∀ call ∈ calls, call.key ≠ key) : timesOf key calls = [] := by
  simpa [timesOf] using h

/-- The window after calls is the one before them, or ends its length after one of them. -/
theorem expiry_enterAll {times : List Int} {w' : Window}
    (h : enterAll window w times = some w') :
    (∃ w₀ ∈ w, w'.expiry = w₀.expiry) ∨ ∃ time ∈ times, w'.expiry = time + window := by
  induction times generalizing w with
  | nil => exact .inl ⟨w', h, rfl⟩
  | cons now times ih =>
    rcases ih h with ⟨w₀, hw₀, hexpiry⟩ | ⟨time, htime, hexpiry⟩
    · cases hw₀
      unfold enter at hexpiry
      split at hexpiry
      · next w₀ hopen => exact .inl ⟨w₀, (Option.filter_eq_some_iff.1 hopen).1, hexpiry⟩
      · exact .inr ⟨now, List.mem_cons_self, hexpiry⟩
    · exact .inr ⟨time, List.mem_cons_of_mem _ htime, hexpiry⟩

/-! ## The retry hint -/

/-- Rounding does not bring a time to live down to whole seconds that end before it. -/
theorem le_ceil_seconds {ttl : Int} (hpos : 0 < ttl) (hsafe : ttl < 2 ^ 53) :
    ttl ≤ 1000 * ⌈Binary64.nearest ((ttl : ℚ) / 1000)⌉ := by
  have hone : (1 : ℚ) ≤ ttl := by exact_mod_cast hpos
  have hbound : (ttl : ℚ) < 2 ^ 53 := by exact_mod_cast hsafe
  have hdiv : (0 : ℚ) ≤ ttl / 1000 := by positivity
  have hnormal : (2 : ℚ) ^ (-1022 : ℤ) ≤ |(ttl : ℚ) / 1000| := by
    rw [abs_of_nonneg hdiv]
    calc (2 : ℚ) ^ (-1022 : ℤ) ≤ 2 ^ (-10 : ℤ) := zpow_le_zpow_right₀ (by norm_num) (by norm_num)
      _ ≤ 1 / 1000 := by norm_num
      _ ≤ ttl / 1000 := by linarith
  have hround := Binary64.abs_nearest_sub_le hnormal
  rw [abs_of_nonneg hdiv, abs_le] at hround
  have hceil := Int.le_ceil (Binary64.nearest ((ttl : ℚ) / 1000))
  generalize Binary64.nearest ((ttl : ℚ) / 1000) = seconds at hround hceil ⊢
  -- Rounding is off by less than a millisecond, and both sides are whole milliseconds.
  by_contra hlt
  have hnext : 1000 * ⌈seconds⌉ + 1 ≤ ttl := by omega
  have hcast : 1000 * (⌈seconds⌉ : ℚ) + 1 ≤ ttl := by exact_mod_cast hnext
  linarith [hround.1]

/-- The end of a window is not after the time that a refused call is told to wait for. -/
theorem expiry_le {w : Window} {now : Int} (hopen : now < w.expiry)
    (hsafe : w.expiry - now < 2 ^ 53) :
    w.expiry ≤ now + 1000 * max 1 ⌈Binary64.nearest (((w.expiry - now : Int) : ℚ) / 1000)⌉ := by
  have hle := le_ceil_seconds (Int.sub_pos.2 hopen) hsafe
  have hmax := le_max_right 1 ⌈Binary64.nearest (((w.expiry - now : Int) : ℚ) / 1000)⌉
  omega

/-- A window is never open for longer than its length. -/
theorem expiry_sub_le (window : Nat) {times : List Int} {now : Int}
    (h : ∀ time ∈ times, time ≤ now) :
    (enter window (enterAll window none times) now).expiry - now ≤ window := by
  have hall : enterAll window none (times ++ [now]) =
      some (enter window (enterAll window none times) now) := by
    generalize (none : Option Window) = w
    induction times generalizing w with
    | nil => rfl
    | cons time times ih => exact ih (fun t ht => h t (List.mem_cons_of_mem _ ht)) _
  rcases expiry_enterAll hall with ⟨w₀, hw₀, -⟩ | ⟨time, htime, hexpiry⟩
  · cases hw₀
  · have hle : time ≤ now := by
      rcases List.mem_append.1 htime with hmem | hlast
      · exact h time hmem
      · exact (List.mem_singleton.1 hlast).le
    omega

/-! ## Whole milliseconds -/

/-- An interval as long as the exact window is not longer than the rounded one. -/
theorem last_le_of_interval {first : ℚ} {time : Int} (hpos : 0 < windowSeconds)
    (hms : Binary64.nearest (windowSeconds * 1000) = window) (hsafe : window < 2 ^ 53)
    (htime : (time : ℚ) ≤ first + windowSeconds * 1000) : time ≤ ⌈first⌉ + window := by
  have hlength : (0 : ℚ) ≤ windowSeconds * 1000 := by positivity
  have hbound : windowSeconds * 1000 < 2 ^ 53 := by
    by_contra hlarge
    have hround := Binary64.zpow_le_nearest (e := 53) (by norm_num) (not_lt.1 hlarge)
    rw [hms] at hround
    have hwindow : 2 ^ 53 ≤ window := by exact_mod_cast hround
    omega
  have hsub : ((time - ⌈first⌉ : Int) : ℚ) ≤ windowSeconds * 1000 := by
    have hceil := Int.le_ceil first
    push_cast
    linarith
  have hle := Binary64.intCast_le_nearest (by rwa [abs_of_nonneg hlength]) hsub
  rw [hms] at hle
  have hint : time - ⌈first⌉ ≤ window := by exact_mod_cast hle
  omega

section Whole

variable (hlimit : 1 ≤ limit) (hpos : 0 < windowSeconds) (hwindow : 0 < window)
  (hms : Binary64.nearest (windowSeconds * 1000) = window) (hsafe : window < 2 ^ 53)

include hlimit hwindow hms

theorem limits_window {before after : List Consume} {start : Consume} {expiry : Int}
    (h : Uses start.key limit windowSeconds (before ++ start :: after))
    (hexpiry : (consumeAll fresh (before ++ [start]) start.key).bind (·.expireAt) = some expiry) :
    (((allowedTimes start.key (consumeAll fresh before) (start :: after)).filter
      fun time => time < expiry).length : ℚ) ≤ limit := by
  have hlimit' : 0 ≤ limit := zero_le_one.trans hlimit
  obtain ⟨-, hholds⟩ := allowedTimes_eq hlimit' hwindow hms h.append_left (holds_fresh start.key)
  obtain ⟨hallowed, -⟩ := allowedTimes_eq hlimit' hwindow hms h.append_right hholds
  have hstart : Binary64.nearest (start.windowSeconds * 1000) = window := by
    rw [h.append_right.window_eq start List.mem_cons_self rfl, hms]
  have htimes : timesOf start.key (start :: after) = start.time :: timesOf start.key after := by
    simp [timesOf]
  have hordered := h.append_right.timesOf_ordered
  rw [consumeAll_append, consumeAll, consumeAll, (hholds.consume hwindow hstart).counter_eq]
    at hexpiry
  cases hexpiry
  rw [htimes] at hallowed hordered
  rw [hallowed]
  exact (Nat.cast_le.2 (length_window_le hordered)).trans (Nat.floor_le hlimit')

include hpos hsafe in
theorem limits_interval (h : Uses key limit windowSeconds calls) (first : ℚ) :
    (((allowedTimes key fresh calls).filter
      fun time : Int => first ≤ time ∧ time ≤ first + windowSeconds * 1000).length : ℚ) ≤
      2 * limit := by
  have hlimit' : 0 ≤ limit := zero_le_one.trans hlimit
  rw [(allowedTimes_eq hlimit' hwindow hms h (holds_fresh key)).1]
  have hall : ((admitted ⌊limit⌋₊ window none (timesOf key calls)).filter
      fun time => ⌈first⌉ ≤ time ∧ time ≤ ⌈first⌉ + window).length ≤ 2 * ⌊limit⌋₊ :=
    length_interval_le (by exact_mod_cast hwindow) h.timesOf_ordered le_rfl
  have hsub : ((admitted ⌊limit⌋₊ window none (timesOf key calls)).filter
      fun time : Int => first ≤ time ∧ time ≤ first + windowSeconds * 1000).length ≤
      ((admitted ⌊limit⌋₊ window none (timesOf key calls)).filter
        fun time => ⌈first⌉ ≤ time ∧ time ≤ ⌈first⌉ + window).length := by
    refine List.Sublist.length_le (List.monotone_filter_right _ fun time htime => ?_)
    obtain ⟨hfirst, hlast⟩ := of_decide_eq_true htime
    exact decide_eq_true ⟨Int.ceil_le.2 hfirst, last_le_of_interval hpos hms hsafe hlast⟩
  have hcast : (((admitted ⌊limit⌋₊ window none (timesOf key calls)).filter
      fun time : Int => first ≤ time ∧ time ≤ first + windowSeconds * 1000).length : ℚ) ≤
      2 * ⌊limit⌋₊ := by exact_mod_cast hsub.trans hall
  linarith [Nat.floor_le hlimit']

theorem limits_expires {before after : List Consume}
    (h : Uses key limit windowSeconds (before ++ after)) {counter : Counter}
    (hcounter : consumeAll fresh before key = some counter) :
    ∃ call ∈ before, call.key = key ∧ ∃ expiry : Int, counter.expireAt = some expiry ∧
      expiry = call.time + Binary64.nearest (windowSeconds * 1000) := by
  obtain ⟨-, hholds⟩ :=
    allowedTimes_eq (zero_le_one.trans hlimit) hwindow hms h.append_left (holds_fresh key)
  rw [hholds.counter_eq, Option.map_eq_some_iff] at hcounter
  obtain ⟨w', hw', rfl⟩ := hcounter
  rcases expiry_enterAll hw' with ⟨w₀, hw₀, -⟩ | ⟨time, htime, hexpiry⟩
  · cases hw₀
  · obtain ⟨call, hcall, rfl⟩ := List.mem_map.1 htime
    obtain ⟨hmem, hkey⟩ := List.mem_filter.1 hcall
    refine ⟨call, hmem, of_decide_eq_true hkey, w'.expiry, rfl, ?_⟩
    rw [hms, hexpiry]
    push_cast
    rfl

include hsafe in
theorem limits_retry {before between after : List Consume} {refused retry : Consume}
    {result : RateLimitResult}
    (h : Uses refused.key limit windowSeconds (before ++ refused :: (between ++ retry :: after)))
    (hkey : retry.key = refused.key) (hbetween : ∀ call ∈ between, call.key ≠ refused.key)
    (hresult : (consume (consumeAll fresh before) refused).2 = .ok result)
    (hretry : refused.time + 1000 * result.retryAfterSeconds ≤ retry.time) :
    ∃ result', (consume (consumeAll fresh (before ++ refused :: between)) retry).2 = .ok result' ∧
      result'.allowed = true := by
  have hlimit' : 0 ≤ limit := zero_le_one.trans hlimit
  obtain ⟨-, hholds⟩ :=
    allowedTimes_eq hlimit' hwindow hms h.append_left (holds_fresh refused.key)
  have hrest := h.append_right
  have hwas : Binary64.nearest (refused.windowSeconds * 1000) = window := by
    rw [hrest.window_eq refused List.mem_cons_self rfl, hms]
  have hagain : Binary64.nearest (retry.windowSeconds * 1000) = window := by
    rw [hrest.tail.append_right.window_eq retry List.mem_cons_self hkey, hms]
  have hagainLimit := hrest.tail.append_right.limit_eq retry List.mem_cons_self hkey
  have hthen := hholds.consume hwindow hwas
  obtain ⟨-, hafter⟩ := allowedTimes_eq hlimit' hwindow hms hrest.tail.append_left hthen
  rw [timesOf_eq_nil hbetween, enterAll] at hafter
  -- What is left of the window is a time that was counted, plus its length.
  have hbefore : ∀ time ∈ timesOf refused.key before, time ≤ refused.time := by
    intro time htime
    obtain ⟨call, hcall, rfl⟩ := List.mem_map.1 htime
    exact (List.pairwise_append.1 h.ordered).2.2 call (List.mem_filter.1 hcall).1 refused
      List.mem_cons_self
  have hleft := expiry_sub_le window hbefore
  have hopen : refused.time < (enter window (enterAll window none (timesOf refused.key before))
      refused.time).expiry := lt_expiry (by exact_mod_cast hwindow) _
  generalize enterAll window none (timesOf refused.key before) = opened at *
  rw [← hkey] at hafter
  rw [consume_eq hwindow hwas hholds] at hresult
  cases hresult
  have hwaited := le_trans (expiry_le hopen (by omega)) hretry
  rw [consumeAll_append, consumeAll, consume_eq hwindow hagain hafter]
  refine ⟨_, rfl, decide_eq_true ?_⟩
  rw [count_enter_of_expired hwaited, hagainLimit]
  exact_mod_cast hlimit

include hpos hsafe in
theorem limitsHold_of_whole (h : Uses key limit windowSeconds calls) :
    LimitsHold key limit windowSeconds calls where
  window := by
    rintro before start after rfl rfl - expiry hexpiry
    exact limits_window hlimit hwindow hms h hexpiry
  interval := limits_interval hlimit hpos hwindow hms hsafe h
  expires := by
    rintro before after rfl counter hcounter
    exact limits_expires hlimit hwindow hms h hcounter
  retry := by
    rintro before refused between retry after rfl rfl hkey hbetween result hresult - hretry
    exact limits_retry hlimit hwindow hms hsafe h hkey hbetween hresult hretry

end Whole

/-! ## Parts of a millisecond, and of a call -/

/-- Redis counts, and then refuses the expiry. -/
theorem consume_of_split (store : Store) (call : Consume)
    (hsplit : (Binary64.nearest (call.windowSeconds * 1000)).den ≠ 1)
    (hnone : find store call.time call.key = none) :
    consume store call = (Function.update store call.key (some ⟨1, none⟩),
      .error (.payment "ERR value is not an integer or out of range")) := by
  have hincr : incr store call.time call.key =
      (Function.update store call.key (some ⟨1, none⟩), 1) := by
    rw [incr, hnone]
    rfl
  have hexpire : pexpire (Function.update store call.key (some ⟨1, none⟩)) call.time call.key
      (Binary64.nearest (call.windowSeconds * 1000)) =
      .error (.payment "ERR value is not an integer or out of range") := by
    rw [pexpire, if_pos hsplit]
  unfold consume fixedWindowScript
  dsimp only
  rw [hincr]
  dsimp only
  rw [if_pos rfl, hexpire]
  rfl

/-- A counter without an expiry goes on counting, and its key is refused from the limit on. -/
theorem allowed_of_stuck (store : Store) (call : Consume) {n : Nat} (hcount : 1 ≤ n)
    (hlimit : call.limit < n + 1) (hstuck : store call.key = some ⟨n, none⟩) :
    (consume store call).2.toOption.any (·.allowed) = false := by
  have hfind : find store call.time call.key = some ⟨n, none⟩ := by
    rw [find, hstuck]
    rfl
  have hincr : incr store call.time call.key =
      (Function.update store call.key (some ⟨n + 1, none⟩), n + 1) := by
    rw [incr, hfind]
    rfl
  unfold consume fixedWindowScript
  dsimp only
  rw [hincr]
  dsimp only
  rw [if_neg (by omega)]
  exact decide_eq_false (not_le.2 (by exact_mod_cast hlimit))

theorem not_limitsHold_of_split (call : Consume) (later : List Consume) (hkey : call.key = key)
    (hsplit : (Binary64.nearest (call.windowSeconds * 1000)).den ≠ 1) :
    ¬LimitsHold key limit windowSeconds (call :: later) := by
  intro h
  have hcounter : consumeAll fresh [call] key = some ⟨1, none⟩ := by
    have hfirst := consume_of_split fresh call hsplit rfl
    rw [consumeAll, consumeAll, hfirst, hkey]
    exact Function.update_self ..
  obtain ⟨-, -, -, expiry, hexpiry, -⟩ := h.expires [call] later rfl _ hcounter
  cases hexpiry

theorem refused_of_small (call : Consume) (hlimit : call.limit < 1) (hwindow : 0 < window)
    (hms : Binary64.nearest (call.windowSeconds * 1000) = window) (h : Holds store call.key w) :
    ∃ result, (consume store call).2 = .ok result ∧ result.allowed = false ∧
      1 ≤ result.retryAfterSeconds := by
  rw [consume_eq hwindow hms h]
  refine ⟨_, rfl, decide_eq_false fun hle => ?_, le_max_left _ _⟩
  have hcount : (1 : ℚ) ≤ (enter window w call.time).count := by exact_mod_cast one_le_count w
  linarith

/-- A limit below one refuses a call, and again when it waited. -/
theorem not_limitsHold_of_small (key : String) (hlimit : limit < 1) (hwindow : 0 < window)
    (hms : Binary64.nearest (windowSeconds * 1000) = window) :
    ∃ calls, Uses key limit windowSeconds calls ∧ ¬LimitsHold key limit windowSeconds calls := by
  have hholds : Holds (consumeAll fresh [⟨0, key, limit, windowSeconds⟩]) key
      (some (enter window none 0)) := Holds.consume hwindow hms (holds_fresh key)
  obtain ⟨result, hresult, hrefused, hseconds⟩ :=
    refused_of_small ⟨0, key, limit, windowSeconds⟩ hlimit hwindow hms (holds_fresh key)
  obtain ⟨again, hagain, hrefusedAgain, -⟩ := refused_of_small
    ⟨1000 * result.retryAfterSeconds, key, limit, windowSeconds⟩ hlimit hwindow hms hholds
  refine ⟨[⟨0, key, limit, windowSeconds⟩,
    ⟨1000 * result.retryAfterSeconds, key, limit, windowSeconds⟩], ⟨?_, ?_, ?_⟩, fun h => ?_⟩
  · simp only [List.pairwise_pair]
    omega
  · simp
  · simp
  · obtain ⟨again', hagain', hallowed⟩ := h.retry [] _ [] _ [] rfl rfl rfl (by simp) result hresult
      hrefused (by simp)
    have heq : again' = again := Except.ok.inj (hagain'.symm.trans hagain)
    rw [heq, hrefusedAgain] at hallowed
    cases hallowed

/-- **The limits hold** over all calls exactly when a call fits the limit and the window is a whole
number of milliseconds. -/
theorem rate_limits_iff (hpos : 0 < windowSeconds)
    (hnumber : Binary64.nearest windowSeconds = windowSeconds)
    (hsafe : Binary64.nearest (windowSeconds * 1000) < 2 ^ 53) :
    (∀ calls, Uses key limit windowSeconds calls → LimitsHold key limit windowSeconds calls) ↔
      1 ≤ limit ∧ ∃ ms : Nat, Binary64.nearest (windowSeconds * 1000) = ms := by
  have htiny := Binary64.le_of_nearest_eq hpos hnumber
  have hproduct : 0 < Binary64.nearest (windowSeconds * 1000) :=
    lt_of_lt_of_le (zpow_pos (by norm_num) _)
      (Binary64.zpow_le_nearest (e := -1074) le_rfl (by linarith))
  constructor
  · intro h
    have hwhole : ∃ ms : Nat, Binary64.nearest (windowSeconds * 1000) = ms := by
      by_contra hsplit
      refine not_limitsHold_of_split ⟨0, key, limit, windowSeconds⟩ [] rfl
        (fun hden => hsplit ?_) (h [_] ⟨List.pairwise_singleton _ _, by simp, by simp⟩)
      refine ⟨(Binary64.nearest (windowSeconds * 1000)).num.toNat, ?_⟩
      have hnum : 0 ≤ (Binary64.nearest (windowSeconds * 1000)).num := Rat.num_nonneg.2 hproduct.le
      rw [← Int.cast_natCast, Int.toNat_of_nonneg hnum]
      exact ((Rat.den_eq_one_iff _).1 hden).symm
    refine ⟨not_lt.1 fun hlimit => ?_, hwhole⟩
    obtain ⟨ms, hms⟩ := hwhole
    rw [hms] at hproduct
    obtain ⟨calls, huses, hnot⟩ :=
      not_limitsHold_of_small key hlimit (by exact_mod_cast hproduct) hms
    exact hnot (h calls huses)
  · rintro ⟨hlimit, ms, hms⟩ calls h
    rw [hms] at hproduct hsafe
    exact limitsHold_of_whole hlimit hpos (by exact_mod_cast hproduct) hms (by exact_mod_cast hsafe) h

/-- With two calls a minute the third is refused, and one at the end of the minute is allowed. -/
theorem rate_limits_minute :
    let call := fun time => (⟨time, "login", 2, 60⟩ : Consume)
    allowedTimes "login" fresh [call 0, call 5000, call 10000, call 60000] = [0, 5000, 60000] ∧
    LimitsHold "login" 2 60 [call 0, call 5000, call 10000, call 60000] := by
  have hms : Binary64.nearest (60 * 1000) = (60000 : Nat) := by
    rw [show (60 * 1000 : ℚ) = (60000 : Nat) by norm_num]
    exact Binary64.nearest_natCast (by norm_num)
  have hnumber : Binary64.nearest 60 = 60 := Binary64.nearest_natCast (n := 60) (by norm_num)
  have huses : Uses "login" 2 60
      [⟨0, "login", 2, 60⟩, ⟨5000, "login", 2, 60⟩, ⟨10000, "login", 2, 60⟩,
        ⟨60000, "login", 2, 60⟩] :=
    { ordered := by decide
      limit_eq := by simp
      window_eq := by simp }
  refine ⟨?_, (rate_limits_iff (by norm_num) hnumber (by rw [hms]; norm_num)).2
    ⟨by norm_num, 60000, hms⟩ _ huses⟩
  rw [(allowedTimes_eq (by norm_num) (by decide) hms huses (holds_fresh "login")).1]
  decide

/-- What 16.1 is in binary64. -/
def fractionalWindow : ℚ := 2265873562520781 / 140737488355328

theorem nearest_fractional : Binary64.nearest (161 / 10) = fractionalWindow := by
  have hulp : Binary64.ulp (161 / 10) = 2 ^ (-48 : ℤ) :=
    Binary64.ulp_eq (e := 4) (by norm_num) (by norm_num) (by norm_num)
  rw [Binary64.nearest, hulp]
  norm_num [Binary64.roundEven, fractionalWindow]

/-- As milliseconds, 16.1 seconds are 16100.000000000002. -/
theorem nearest_fractional_ms :
    Binary64.nearest (fractionalWindow * 1000) = 8851068603596801 / 549755813888 := by
  have hulp : Binary64.ulp (fractionalWindow * 1000) = 2 ^ (-39 : ℤ) :=
    Binary64.ulp_eq (e := 13) (by norm_num) (by norm_num [fractionalWindow])
      (by norm_num [fractionalWindow])
  rw [Binary64.nearest, hulp]
  norm_num [Binary64.roundEven, fractionalWindow]

/-- With one call in 16.1 seconds, the first call fails after it is counted, and a call a year later
is still refused. -/
theorem fractional_never_ends :
    let calls := [(⟨0, "login", 1, fractionalWindow⟩ : Consume),
      ⟨31536000000, "login", 1, fractionalWindow⟩]
    Binary64.nearest (161 / 10) = fractionalWindow ∧
    Uses "login" 1 fractionalWindow calls ∧ ¬LimitsHold "login" 1 fractionalWindow calls ∧
    allowedTimes "login" fresh calls = [] := by
  have hsplit : (Binary64.nearest (fractionalWindow * 1000)).den ≠ 1 := by
    rw [nearest_fractional_ms]
    decide +kernel
  have hfirst := consume_of_split fresh ⟨0, "login", 1, fractionalWindow⟩ hsplit rfl
  have hlater := allowed_of_stuck (consume fresh ⟨0, "login", 1, fractionalWindow⟩).1
    ⟨31536000000, "login", 1, fractionalWindow⟩ le_rfl (by norm_num) (by rw [hfirst]; rfl)
  refine ⟨nearest_fractional, ⟨by decide, by simp, by simp⟩,
    not_limitsHold_of_split _ _ rfl hsplit, ?_⟩
  simp only [allowedTimes, hlater, Bool.false_eq_true, and_false, if_false]
  rw [hfirst]
  rfl

end RateLimiter

end PaymentGateway
