import PaymentGateway.System.ReorgDepth

/-!
# What a tick makes of a chain

A tick as seen from outside: from where the cursor is, which blocks have been read so far and in
which versions, and in which blocks transactions are recorded as mined (`Survey`), to the same
afterwards (`Survey.Tick`). It resumes at the cursor, or one block below it if the chain has another
hash there, and reads upwards.

* `Survey.Tick.contiguous` — whatever the chains do, no height is left out between the first block
  read and the cursor, and what is recorded is recorded in the version last read.
* `Survey.undone_iff` — if so far everything has been undone, a tick undoes what the chain has done
  since exactly if nothing below the cursor's own block was touched (`Survey.Shallow`).
* `Survey.Tick.forsaken` — a block below it that is not on the chain any more is not read again,
  however the chain grows.
-/

namespace PaymentGateway

/-! ## Chains -/

/-- What the chain of a network is at some time. -/
structure CanonicalChain where
  tip : Nat
  hashAt : Nat → String
  /-- The height of the block that a transaction is in. -/
  heightOf : String → Option Nat
  named : ∀ height ≤ tip, hashAt height ≠ ""

namespace CanonicalChain

variable {chain chain' : CanonicalChain} {height base count : Nat} {hash : String}

/-- This version of a block is on the chain. A hash may be spelled in either case. -/
def Has (chain : CanonicalChain) (height : Nat) (hash : String) : Prop :=
  height ≤ chain.tip ∧ toLowerCase hash = toLowerCase (chain.hashAt height)

instance : Decidable (chain.Has height hash) :=
  inferInstanceAs (Decidable (_ ∧ _))

/-- Blocks have been added, and nothing else. -/
structure Grows (chain chain' : CanonicalChain) : Prop where
  tip_le : chain.tip ≤ chain'.tip
  hashAt_eq : ∀ height ≤ chain.tip, chain'.hashAt height = chain.hashAt height

theorem Grows.refl (chain : CanonicalChain) : chain.Grows chain := ⟨le_rfl, fun _ _ => rfl⟩

theorem Grows.trans {chain'' : CanonicalChain} (h : chain.Grows chain')
    (h' : chain'.Grows chain'') : chain.Grows chain'' :=
  ⟨h.tip_le.trans h'.tip_le, fun height hle =>
    (h'.hashAt_eq height (hle.trans h.tip_le)).trans (h.hashAt_eq height hle)⟩

/-- A grown chain has no other version of an old block. -/
theorem Grows.has (h : chain.Grows chain') (hle : height ≤ chain.tip)
    (hhas : chain'.Has height hash) : chain.Has height hash :=
  ⟨hle, by rw [hhas.2, h.hashAt_eq height hle]⟩

/-- So many blocks above a height, the highest first. -/
def above (chain : CanonicalChain) (base : Nat) : Nat → List (Nat × String)
  | 0 => []
  | count + 1 => (base + count + 1, chain.hashAt (base + count + 1)) :: chain.above base count

theorem mem_above {e : Nat × String} :
    e ∈ chain.above base count ↔ (base < e.1 ∧ e.1 ≤ base + count) ∧ e.2 = chain.hashAt e.1 := by
  induction count with
  | zero =>
    simp only [above, List.not_mem_nil, false_iff]
    omega
  | succ count ih =>
    rw [above, List.mem_cons, ih]
    constructor
    · rintro (rfl | ⟨hrange, hhash⟩)
      · exact ⟨by omega, rfl⟩
      · exact ⟨by omega, hhash⟩
    · rintro ⟨hrange, hhash⟩
      by_cases hlast : e.1 = base + count + 1
      · refine .inl (Prod.ext hlast ?_)
        rw [hhash, hlast]
      · exact .inr ⟨by omega, hhash⟩

/-- Heights that were not read again keep their version. -/
theorem lookup_above_of_le {l : List (Nat × String)} (h : height ≤ base) :
    (chain.above base count ++ l).lookup height = l.lookup height := by
  induction count with
  | zero => rfl
  | succ count ih =>
    have hne : (height == base + count + 1) = false := beq_false_of_ne (by omega)
    rw [above, List.cons_append, List.lookup_cons, hne]
    exact ih

theorem lookup_above {l : List (Nat × String)} (hlow : base < height)
    (hhigh : height ≤ base + count) :
    (chain.above base count ++ l).lookup height = some (chain.hashAt height) := by
  induction count with
  | zero => omega
  | succ count ih =>
    rw [above, List.cons_append, List.lookup_cons]
    by_cases hlast : height = base + count + 1
    · rw [hlast, beq_self_eq_true]
    · rw [beq_false_of_ne hlast]
      exact ih (by omega)

end CanonicalChain

theorem mem_of_lookup {l : List (Nat × String)} {height : Nat} {hash : String}
    (h : l.lookup height = some hash) : (height, hash) ∈ l := by
  obtain ⟨before, after, rfl, -⟩ := List.lookup_eq_some_iff.1 h
  exact List.mem_append_right _ List.mem_cons_self

/-! ## Surveys -/

/-- What there is to see of a scanner. -/
structure Survey where
  position : Option Position
  /-- The blocks that have been read and in which version, the last one first. -/
  scanned : List (Nat × String)
  /-- The blocks, by number and hash, in which transactions are recorded as mined. -/
  mined : List (Option Nat × Option String)

namespace Survey

variable {chain chain' : CanonicalChain} {s s' : Survey} {p : Position} {height : Nat}
  {hash : String} {kept : List (Option Nat × Option String)}

/-- Every block from the first height read to the cursor is on the chain in the version last read,
and so is every block that a transaction is recorded in. -/
structure Undone (s : Survey) (chain : CanonicalChain) : Prop where
  scanned : ∀ p, s.position = some p → ∀ e ∈ s.scanned, ∀ height, e.1 ≤ height →
    height ≤ p.lastProcessedBlock →
      ∃ hash, s.scanned.lookup height = some hash ∧ chain.Has height hash
  mined : ∀ m ∈ s.mined, ∃ height hash, m = (some height, some hash) ∧ chain.Has height hash

/-- Of the blocks that have been read, the new chain has those of the old one that are below the
cursor's own. -/
def Shallow (s : Survey) (chain chain' : CanonicalChain) : Prop :=
  ∀ p, s.position = some p → ∀ e ∈ s.scanned, ∀ height, e.1 ≤ height →
    height < p.lastProcessedBlock → chain'.Has height (chain.hashAt height)

instance : Decidable (s.Shallow chain chain') :=
  decidable_of_iff (∀ p ∈ s.position, ∀ e ∈ s.scanned, ∀ height < p.lastProcessedBlock,
      e.1 ≤ height → chain'.Has height (chain.hashAt height))
    ⟨fun h p hp e he height hfirst hlow => h p hp e he height hlow hfirst,
      fun h p hp e he height hlow hfirst => h p hp e he height hfirst hlow⟩

/-! ## A tick -/

/-- The hash that is stored when the cursor goes back to a height. -/
def previousOn (chain : CanonicalChain) (height : Nat) : Option String :=
  if 0 < height ∧ height ≤ chain.tip then some (chain.hashAt height) else none

/-- The cursor that is loaded, or created. -/
def Loads (s : Survey) (p : Position) : Prop :=
  s.position = some p ∨ (s.position = none ∧ p.lastProcessedHash = none)

/-- Where a tick goes on, and what it leaves recorded of what was. -/
inductive Resumes (chain : CanonicalChain) (s : Survey) :
    Position → List (Option Nat × Option String) → Prop
  | onward {p : Position} (hloads : s.Loads p) (hagrees : Agrees chain.hashAt chain.tip p) :
      Resumes chain s p s.mined
  | back {p : Position} {kept : List (Option Nat × Option String)} (hfound : s.position = some p)
      (hdiffers : ¬ Agrees chain.hashAt chain.tip p)
      (hkept : ∀ m ∈ kept, m ∈ s.mined ∧ ∀ height ∈ m.1, height < p.lastProcessedBlock) :
      Resumes chain s
        ⟨p.lastProcessedBlock - 1, previousOn chain (p.lastProcessedBlock - 1)⟩ kept

/-- Where a scan of so many blocks ends. -/
def endOf (chain : CanonicalChain) (p : Position) : Nat → Position
  | 0 => p
  | count + 1 =>
    ⟨p.lastProcessedBlock + count + 1, some (chain.hashAt (p.lastProcessedBlock + count + 1))⟩

/-- A transaction is recorded in one of the blocks read above the cursor. -/
def Fresh (chain : CanonicalChain) (p : Position) (count : Nat) (m : Option Nat × Option String) :
    Prop :=
  ∃ height, p.lastProcessedBlock < height ∧ height ≤ p.lastProcessedBlock + count ∧
    m = (some height, some (chain.hashAt height))

/-- So many blocks above the cursor have been read, and transactions of theirs recorded. -/
structure Reads (chain : CanonicalChain) (p : Position) (kept : List (Option Nat × Option String))
    (count : Nat) (s s' : Survey) : Prop where
  scanned : s'.scanned = chain.above p.lastProcessedBlock count ++ s.scanned
  mined : ∀ m ∈ s'.mined, m ∈ kept ∨ Fresh chain p count m
  reached : count = 0 ∨ p.lastProcessedBlock + count ≤ chain.tip

/-- **A tick that is finished on a chain.** -/
inductive Tick (chain : CanonicalChain) (s s' : Survey) : Prop
  | tick {p : Position} {kept : List (Option Nat × Option String)} {count : Nat}
      (hresumes : Resumes chain s p kept) (hreads : Reads chain p kept count s s')
      (hends : s'.position = some (endOf chain p count))

theorem endOf_block (chain : CanonicalChain) (p : Position) (count : Nat) :
    (endOf chain p count).lastProcessedBlock = p.lastProcessedBlock + count := by
  cases count <;> rfl

/-- A tick goes back by one block at most. -/
theorem Resumes.block_le {loaded : Position} (h : Resumes chain s p kept)
    (hloaded : s.position = some loaded) :
    p.lastProcessedBlock ≤ loaded.lastProcessedBlock ∧
      loaded.lastProcessedBlock ≤ p.lastProcessedBlock + 1 := by
  cases h with
  | onward hloads _ =>
    rcases hloads with hfound | ⟨hnone, -⟩
    · rw [hfound] at hloaded
      cases hloaded
      omega
    · rw [hnone] at hloaded
      cases hloaded
  | back hfound _ _ =>
    rw [hfound] at hloaded
    cases hloaded
    show loaded.lastProcessedBlock - 1 ≤ _ ∧ _ ≤ loaded.lastProcessedBlock - 1 + 1
    omega

/-! ## What always holds -/

/-- Between the first block read and the cursor no height is left out, and what is recorded is
recorded there, in the version last read. -/
structure Contiguous (s : Survey) : Prop where
  unread : s.position = none → s.scanned = []
  named : ∀ e ∈ s.scanned, 0 < e.1 ∧ e.2 ≠ ""
  filled : ∀ p, s.position = some p → ∀ e ∈ s.scanned, ∀ height, e.1 ≤ height →
    height ≤ p.lastProcessedBlock → (s.scanned.lookup height).isSome = true
  recorded : ∀ m ∈ s.mined, ∃ p height hash, s.position = some p ∧
    height ≤ p.lastProcessedBlock ∧ m = (some height, some hash) ∧
      s.scanned.lookup height = some hash

/-- Nothing has been read yet. -/
theorem contiguous_unread (hposition : s.position = none) (hscanned : s.scanned = [])
    (hmined : s.mined = []) : Contiguous s := by
  refine ⟨fun _ => hscanned, fun e he => ?_, fun p hp => ?_, fun m hm => ?_⟩
  · rw [hscanned] at he
    cases he
  · rw [hposition] at hp
    cases hp
  · rw [hmined] at hm
    cases hm

/-- What is left recorded is not above the height a tick goes on from. -/
theorem Resumes.recorded (h : Resumes chain s p kept) (hs : Contiguous s)
    {m : Option Nat × Option String} (hm : m ∈ kept) :
    ∃ height hash, height ≤ p.lastProcessedBlock ∧ m = (some height, some hash) ∧
      s.scanned.lookup height = some hash := by
  cases h with
  | onward hloads _ =>
    obtain ⟨loaded, height, hash, hfound, hle, rfl, hlookup⟩ := hs.recorded m hm
    rcases hloads with hsame | ⟨hnone, -⟩
    · rw [hsame] at hfound
      cases hfound
      exact ⟨height, hash, hle, rfl, hlookup⟩
    · rw [hnone] at hfound
      cases hfound
  | back hfound _ hkept =>
    obtain ⟨hold, hlow⟩ := hkept m hm
    obtain ⟨_, height, hash, -, -, rfl, hlookup⟩ := hs.recorded m hold
    exact ⟨height, hash, Nat.le_sub_one_of_lt (hlow height rfl), rfl, hlookup⟩

theorem Tick.contiguous (hs : Contiguous s) (h : Tick chain s s') : Contiguous s' := by
  obtain @⟨p, kept, count, hresumes, hreads, hends⟩ := h
  have hend := endOf_block chain p count
  have hblocks : ∀ e ∈ chain.above p.lastProcessedBlock count, e.1 ≤ chain.tip := by
    intro e he
    obtain ⟨hrange, -⟩ := CanonicalChain.mem_above.1 he
    have hreached := hreads.reached
    omega
  refine ⟨fun hnone => ?_, fun e he => ?_, fun q hq e he height hlow hhigh => ?_, fun m hm => ?_⟩
  · rw [hends] at hnone
    cases hnone
  · rw [hreads.scanned] at he
    rcases List.mem_append.1 he with hnew | hold
    · obtain ⟨hrange, hhash⟩ := CanonicalChain.mem_above.1 hnew
      rw [hhash]
      exact ⟨by omega, chain.named _ (hblocks e hnew)⟩
    · exact hs.named e hold
  · obtain rfl : endOf chain p count = q := Option.some.inj (hends.symm.trans hq)
    rw [hreads.scanned] at he ⊢
    by_cases hnew : p.lastProcessedBlock < height
    · rw [CanonicalChain.lookup_above hnew (by omega)]
      rfl
    · rw [CanonicalChain.lookup_above_of_le (not_lt.1 hnew)]
      have hold : e ∈ s.scanned := by
        refine (List.mem_append.1 he).resolve_left fun hmem => ?_
        obtain ⟨hrange, -⟩ := CanonicalChain.mem_above.1 hmem
        omega
      cases hloaded : s.position with
      | none =>
        rw [hs.unread hloaded] at hold
        cases hold
      | some loaded =>
        have hle := (hresumes.block_le hloaded).1
        exact hs.filled loaded hloaded e hold height hlow (by omega)
  · rcases hreads.mined m hm with hold | ⟨height, hlow, hhigh, rfl⟩
    · obtain ⟨height, hash, hle, rfl, hlookup⟩ := hresumes.recorded hs hold
      refine ⟨_, height, hash, hends, by omega, rfl, ?_⟩
      rw [hreads.scanned, CanonicalChain.lookup_above_of_le hle, hlookup]
    · refine ⟨_, height, _, hends, by omega, rfl, ?_⟩
      rw [hreads.scanned, CanonicalChain.lookup_above hlow hhigh]

/-! ## What holds as long as everything is undone -/

/-- The stored hash is that of the version last read. -/
def Stored (s : Survey) : Prop :=
  ∀ p, s.position = some p → ∀ hash, s.scanned.lookup p.lastProcessedBlock = some hash →
    p.lastProcessedHash.map toLowerCase = some (toLowerCase hash)

theorem toLowerCase_ne_empty (h : hash ≠ "") : toLowerCase hash ≠ toLowerCase "" := by
  intro hsame
  refine h (String.toList_inj.1 ?_)
  have hlist := congrArg String.toList hsame
  rw [toList_toLowerCase, toList_toLowerCase] at hlist
  exact List.map_eq_nil_iff.1 hlist

/-- Below the cursor's own block, nothing that was read has been replaced. -/
theorem Shallow.has (hs : Shallow s chain chain') (hundone : Undone s chain)
    (hp : s.position = some p) (hlow : height < p.lastProcessedBlock)
    (hlookup : s.scanned.lookup height = some hash) : chain'.Has height hash := by
  have hmem := mem_of_lookup hlookup
  obtain ⟨_, hsame, hhas⟩ := hundone.scanned p hp _ hmem height le_rfl hlow.le
  obtain rfl := Option.some.inj (hlookup.symm.trans hsame)
  obtain ⟨hle, hnew⟩ := hs p hp _ hmem height le_rfl hlow
  exact ⟨hle, hhas.2.trans hnew⟩

/-- Up to where a tick goes on, everything is on the new chain. -/
theorem Resumes.has (h : Resumes chain' s p kept) (hcontiguous : Contiguous s) (hstored : Stored s)
    (hundone : Undone s chain) (hs : Shallow s chain chain') (hle : height ≤ p.lastProcessedBlock)
    (hlookup : s.scanned.lookup height = some hash) : chain'.Has height hash := by
  obtain ⟨hpositive, hnamed⟩ := hcontiguous.named _ (mem_of_lookup hlookup)
  cases h with
  | onward hloads hagrees =>
    rcases hloads with hfound | ⟨hnone, -⟩
    · rcases Nat.lt_or_eq_of_le hle with hlt | rfl
      · exact hs.has hundone hfound hlt hlookup
      -- At the cursor itself the tick has compared the stored hash.
      have hhash := hstored p hfound hash hlookup
      rcases hagrees with hempty | hzero | ⟨hreached, hsame⟩
      · cases hlast : p.lastProcessedHash with
        | none =>
          rw [hlast] at hhash
          cases hhash
        | some stored =>
          rw [hlast] at hempty hhash
          obtain rfl : stored = "" := hempty
          exact absurd (Option.some.inj hhash).symm (toLowerCase_ne_empty hnamed)
      · exact absurd hzero hpositive.ne'
      · exact ⟨hreached, Option.some.inj (hhash.symm.trans hsame)⟩
    · rw [hcontiguous.unread hnone] at hlookup
      cases hlookup
  | @back loaded kept hfound hdiffers _ =>
    have hpos : 0 < loaded.lastProcessedBlock :=
      Nat.pos_of_ne_zero fun hzero => hdiffers (.inr (.inl hzero))
    have hlt : height < loaded.lastProcessedBlock := by
      have hle' : height ≤ loaded.lastProcessedBlock - 1 := hle
      omega
    exact hs.has hundone hfound hlt hlookup

/-- **A tick undoes what the chain has done**, if nothing below the cursor's block was touched. -/
theorem Tick.undone (h : Tick chain' s s') (hcontiguous : Contiguous s) (hstored : Stored s)
    (hundone : Undone s chain) (hs : Shallow s chain chain') : Undone s' chain' := by
  have hcontiguous' := h.contiguous hcontiguous
  obtain @⟨p, kept, count, hresumes, hreads, hends⟩ := h
  have hend := endOf_block chain' p count
  have hscanned : ∀ q, s'.position = some q → ∀ e ∈ s'.scanned, ∀ height, e.1 ≤ height →
      height ≤ q.lastProcessedBlock →
        ∃ hash, s'.scanned.lookup height = some hash ∧ chain'.Has height hash := by
    intro q hq e he height hlow hhigh
    obtain ⟨hash, hlookup⟩ :=
      Option.isSome_iff_exists.1 (hcontiguous'.filled q hq e he height hlow hhigh)
    obtain rfl := Option.some.inj (hends.symm.trans hq)
    refine ⟨hash, hlookup, ?_⟩
    rw [hreads.scanned] at hlookup
    by_cases hnew : p.lastProcessedBlock < height
    · rw [CanonicalChain.lookup_above hnew (by omega)] at hlookup
      obtain rfl := Option.some.inj hlookup
      have hreached := hreads.reached
      exact ⟨by omega, rfl⟩
    · rw [CanonicalChain.lookup_above_of_le (not_lt.1 hnew)] at hlookup
      exact hresumes.has hcontiguous hstored hundone hs (not_lt.1 hnew) hlookup
  refine ⟨hscanned, fun m hm => ?_⟩
  obtain ⟨q, height, hash, hq, hle, rfl, hlookup⟩ := hcontiguous'.recorded m hm
  obtain ⟨_, hsame, hhas⟩ := hscanned q hq _ (mem_of_lookup hlookup) height le_rfl hle
  obtain rfl := Option.some.inj (hlookup.symm.trans hsame)
  exact ⟨height, hash, rfl, hhas⟩

theorem Tick.stored (h : Tick chain' s s') (hcontiguous : Contiguous s) (hstored : Stored s)
    (hundone : Undone s chain) (hs : Shallow s chain chain') : Stored s' := by
  obtain @⟨p, kept, count, hresumes, hreads, hends⟩ := h
  intro q hq hash hlookup
  obtain rfl := Option.some.inj (hends.symm.trans hq)
  rw [hreads.scanned] at hlookup
  cases count with
  | succ count =>
    rw [endOf_block, CanonicalChain.lookup_above (by omega) le_rfl] at hlookup
    obtain rfl := Option.some.inj hlookup
    rfl
  | zero =>
    have hhas := hresumes.has hcontiguous hstored hundone hs le_rfl hlookup
    obtain ⟨hpositive, -⟩ := hcontiguous.named _ (mem_of_lookup hlookup)
    show p.lastProcessedHash.map toLowerCase = _
    cases hresumes with
    | onward hloads _ =>
      rcases hloads with hfound | ⟨hnone, -⟩
      · exact hstored p hfound hash hlookup
      · have hempty : s.scanned.lookup p.lastProcessedBlock = some hash := hlookup
        rw [hcontiguous.unread hnone] at hempty
        cases hempty
    | back _ _ _ =>
      show Option.map toLowerCase (previousOn chain' _) = _
      rw [previousOn, if_pos ⟨hpositive, hhas.1⟩, hhas.2]
      rfl

/-! ## What does not come back -/

/-- Up to the cursor, this version of a block is the one last read. -/
def Left (s : Survey) (height : Nat) (hash : String) : Prop :=
  ∃ p, s.position = some p ∧ height ≤ p.lastProcessedBlock ∧
    s.scanned.lookup height = some hash

/-- Below the block that the cursor was at, a tick reads nothing. -/
theorem Tick.left (h : Tick chain s s') (hp : s.position = some p)
    (hlow : height < p.lastProcessedBlock) (hlookup : s.scanned.lookup height = some hash) :
    s'.Left height hash := by
  obtain @⟨from_, kept, count, hresumes, hreads, hends⟩ := h
  have hend := endOf_block chain from_ count
  have hback := (hresumes.block_le hp).2
  refine ⟨_, hends, by omega, ?_⟩
  rw [hreads.scanned, CanonicalChain.lookup_above_of_le (by omega), hlookup]

theorem Left.has_of_undone (h : s.Left height hash) (hundone : Undone s chain) :
    chain.Has height hash := by
  obtain ⟨p, hp, hle, hlookup⟩ := h
  obtain ⟨_, hsame, hhas⟩ := hundone.scanned p hp _ (mem_of_lookup hlookup) height le_rfl hle
  obtain rfl := Option.some.inj (hlookup.symm.trans hsame)
  exact hhas

/-- What a chain has dropped below the cursor's block is left as it was read. -/
theorem Tick.forsaken (h : Tick chain' s s') (hundone : Undone s chain)
    (hs : ¬ Shallow s chain chain') :
    ∃ height hash, ¬ chain'.Has height hash ∧ s'.Left height hash := by
  unfold Shallow at hs
  push Not at hs
  obtain ⟨p, hp, e, he, height, hfirst, hlow, hnot⟩ := hs
  obtain ⟨hash, hlookup, hhas⟩ := hundone.scanned p hp e he height hfirst hlow.le
  refine ⟨height, hash, fun hnew => hnot ⟨hnew.1, ?_⟩, h.left hp hlow hlookup⟩
  rw [← hhas.2, hnew.2]

/-- **A tick undoes everything exactly if nothing below the cursor's block was touched.** -/
theorem undone_iff (h : Tick chain' s s') (hcontiguous : Contiguous s) (hstored : Stored s)
    (hundone : Undone s chain) : Undone s' chain' ↔ Shallow s chain chain' := by
  refine ⟨fun hundone' => ?_, h.undone hcontiguous hstored hundone⟩
  by_contra hdeep
  obtain ⟨height, hash, hnot, hleft⟩ := h.forsaken hundone hdeep
  exact hnot (hleft.has_of_undone hundone')

/-- The stored hash is one of the chain. -/
def Settled (s : Survey) (chain : CanonicalChain) : Prop :=
  ∀ p, s.position = some p → Agrees chain.hashAt chain.tip p

/-- Wherever a tick ends, it stores what the chain has there. -/
theorem Tick.settled (h : Tick chain s s') : Settled s' chain := by
  obtain @⟨p, kept, count, hresumes, hreads, hends⟩ := h
  intro q hq
  obtain rfl := Option.some.inj (hends.symm.trans hq)
  cases count with
  | succ count =>
    exact .inr (.inr ⟨hreads.reached.resolve_left (Nat.succ_ne_zero count), rfl⟩)
  | zero =>
    cases hresumes with
    | onward _ hagrees => exact hagrees
    | back _ _ _ =>
      show Agrees _ _ ⟨_, previousOn chain _⟩
      unfold previousOn
      split_ifs with hknown
      · exact .inr (.inr ⟨hknown.2, rfl⟩)
      · exact .inl rfl

theorem Settled.grows (h : Settled s chain) (hgrows : chain.Grows chain') : Settled s chain' := by
  intro p hp
  rcases h p hp with hempty | hzero | ⟨hle, hhash⟩
  · exact .inl hempty
  · exact .inr (.inl hzero)
  · refine .inr (.inr ⟨hle.trans hgrows.tip_le, ?_⟩)
    rw [hgrows.hashAt_eq _ hle, hhash]

/-- While the chain only grows, no tick goes back. -/
theorem Left.tick (h : s.Left height hash) (hsettled : Settled s chain) (htick : Tick chain s s') :
    s'.Left height hash := by
  obtain ⟨p, hp, hle, hlookup⟩ := h
  obtain @⟨from_, kept, count, hresumes, hreads, hends⟩ := htick
  have hend := endOf_block chain from_ count
  have hsame : from_ = p := by
    cases hresumes with
    | onward hloads _ =>
      rcases hloads with hfound | ⟨hnone, -⟩
      · exact Option.some.inj (hfound.symm.trans hp)
      · rw [hnone] at hp
        cases hp
    | back hfound hdiffers _ => exact absurd (hsettled _ hfound) hdiffers
  subst hsame
  refine ⟨_, hends, by omega, ?_⟩
  rw [hreads.scanned, CanonicalChain.lookup_above_of_le hle, hlookup]

end Survey

end PaymentGateway
