import Mathlib.Data.List.AList

namespace Ntrip

/-!
# Ledgers of numbered resources

Resources are obtained and released through small numbers that are handed
out again after a release.  A ledger keeps the table of the numbers in use,
the resources obtained so far, and for every release the resource that its
number stood for.  It balances when every resource was released exactly once,
none is left, and no release met a number that was not in use.
-/

universe u v

structure Ledger (Number : Type u) (Resource : Type v) where
  table : AList (fun _ : Number => Resource)
  obtained : List Resource
  released : List (Number × Option Resource)

namespace Ledger

variable {Number : Type u} {Resource : Type v} [DecidableEq Number]

def empty : Ledger Number Resource where
  table := ∅
  obtained := []
  released := []

/-- The resource that a number stands for. -/
def holder (ledger : Ledger Number Resource) (number : Number) : Option Resource :=
  ledger.table.lookup number

def obtain (ledger : Ledger Number Resource) (number : Number) (resource : Resource) :
    Ledger Number Resource where
  table := ledger.table.insert number resource
  obtained := ledger.obtained ++ [resource]
  released := ledger.released

def release (ledger : Ledger Number Resource) (number : Number) : Ledger Number Resource where
  table := ledger.table.erase number
  obtained := ledger.obtained
  released := ledger.released ++ [(number, ledger.holder number)]

def releaseAll (ledger : Ledger Number Resource) (numbers : List Number) :
    Ledger Number Resource :=
  numbers.foldl release ledger

omit [DecidableEq Number] in
/-- The resources that were released, as often as they were. -/
def gone (ledger : Ledger Number Resource) : List Resource :=
  ledger.released.filterMap Prod.snd

/-- Every resource was released exactly once, and no release was in vain. -/
structure Balanced [DecidableEq Resource] (ledger : Ledger Number Resource) : Prop where
  once : ∀ resource ∈ ledger.obtained, ledger.gone.count resource = 1
  nothingLeft : ∀ number, ledger.holder number = none
  noneInVain : ∀ call ∈ ledger.released, call.2 ≠ none

/-! ## What the operations do -/

@[simp] theorem holder_empty (number : Number) :
    (empty : Ledger Number Resource).holder number = none :=
  AList.lookup_empty number

@[simp] theorem holder_obtain (ledger : Ledger Number Resource) (number other : Number)
    (resource : Resource) :
    (ledger.obtain number resource).holder other =
      if other = number then some resource else ledger.holder other := by
  by_cases same : other = number
  · rw [if_pos same, same]
    exact AList.lookup_insert ledger.table
  · rw [if_neg same]
    exact AList.lookup_insert_ne same

@[simp] theorem holder_release (ledger : Ledger Number Resource) (number other : Number) :
    (ledger.release number).holder other =
      if other = number then none else ledger.holder other := by
  by_cases same : other = number
  · rw [if_pos same, same]
    exact AList.lookup_erase number ledger.table
  · rw [if_neg same]
    exact AList.lookup_erase_ne same

@[simp] theorem holder_releaseAll (ledger : Ledger Number Resource) (numbers : List Number)
    (other : Number) :
    (ledger.releaseAll numbers).holder other =
      if other ∈ numbers then none else ledger.holder other := by
  induction numbers generalizing ledger with
  | nil => rfl
  | cons number rest inductionHypothesis =>
      change ((ledger.release number).releaseAll rest).holder other = _
      rw [inductionHypothesis, holder_release]
      by_cases same : other = number
      · simp [same]
      · simp [same]

@[simp] theorem obtained_releaseAll (ledger : Ledger Number Resource) (numbers : List Number) :
    (ledger.releaseAll numbers).obtained = ledger.obtained := by
  induction numbers generalizing ledger with
  | nil => rfl
  | cons number rest inductionHypothesis => exact inductionHypothesis (ledger.release number)

@[simp] theorem gone_release (ledger : Ledger Number Resource) (number : Number) :
    (ledger.release number).gone = ledger.gone ++ (ledger.holder number).toList := by
  rw [gone, release, List.filterMap_append]
  cases ledger.holder number with
  | none => rfl
  | some resource => rfl

theorem mem_released_release (ledger : Ledger Number Resource) (number : Number) :
    (number, ledger.holder number) ∈ (ledger.release number).released :=
  List.mem_append_right _ List.mem_cons_self

theorem released_subset_releaseAll (ledger : Ledger Number Resource) (numbers : List Number) :
    ledger.released ⊆ (ledger.releaseAll numbers).released := by
  induction numbers generalizing ledger with
  | nil => exact fun _ member => member
  | cons number rest inductionHypothesis =>
      intro call member
      exact inductionHypothesis (ledger.release number) (List.mem_append_left _ member)

/-- A number that is not in use is released in vain. -/
theorem vain_of_holder_eq_none {ledger : Ledger Number Resource} {number : Number}
    (unused : ledger.holder number = none) {numbers : List Number} (member : number ∈ numbers) :
    (number, none) ∈ (ledger.releaseAll numbers).released := by
  induction numbers generalizing ledger with
  | nil => exact absurd member List.not_mem_nil
  | cons head rest inductionHypothesis =>
      by_cases first : number = head
      · apply released_subset_releaseAll (ledger.release head) rest
        have record := mem_released_release ledger number
        rw [unused] at record
        rw [← first]
        exact record
      · refine inductionHypothesis ?_ ((List.mem_cons.mp member).resolve_left first)
        rw [holder_release, if_neg first, unused]

/-- No release is in vain when the numbers are distinct and in use. -/
theorem noneInVain_releaseAll_iff (ledger : Ledger Number Resource) (numbers : List Number) :
    (∀ call ∈ (ledger.releaseAll numbers).released, call.2 ≠ none) ↔
      (∀ call ∈ ledger.released, call.2 ≠ none) ∧ numbers.Nodup ∧
        ∀ number ∈ numbers, ledger.holder number ≠ none := by
  induction numbers generalizing ledger with
  | nil => simp [releaseAll]
  | cons head rest inductionHypothesis =>
      have here : (∀ call ∈ (ledger.release head).released, call.2 ≠ none) ↔
          (∀ call ∈ ledger.released, call.2 ≠ none) ∧ ledger.holder head ≠ none := by
        simp only [release, List.forall_mem_append, List.forall_mem_singleton]
      have later : (∀ number ∈ rest, (ledger.release head).holder number ≠ none) ↔
          head ∉ rest ∧ ∀ number ∈ rest, ledger.holder number ≠ none := by
        constructor
        · intro held
          constructor
          · intro again
            exact held head again (by rw [holder_release, if_pos rfl])
          · intro number member unused
            exact held number member (by rw [holder_release, unused, ite_self])
        · rintro ⟨fresh, held⟩ number member
          have different : number ≠ head := by
            intro same
            exact fresh (same ▸ member)
          rw [holder_release, if_neg different]
          exact held number member
      change (∀ call ∈ ((ledger.release head).releaseAll rest).released, call.2 ≠ none) ↔ _
      rw [inductionHypothesis, here, later, List.nodup_cons, List.forall_mem_cons]
      constructor
      · rintro ⟨⟨before, first⟩, distinct, fresh, held⟩
        exact ⟨before, ⟨fresh, distinct⟩, first, held⟩
      · rintro ⟨before, ⟨fresh, distinct⟩, first, held⟩
        exact ⟨⟨before, first⟩, distinct, fresh, held⟩

/-! ## The books are kept -/

/-- Every resource obtained is in use under one number, or was released once. -/
structure Sound (ledger : Ledger Number Resource) : Prop where
  distinct : ledger.obtained.Nodup
  goneOnce : ledger.gone.Nodup
  goneObtained : ∀ resource ∈ ledger.gone, resource ∈ ledger.obtained
  held : ∀ number resource, ledger.holder number = some resource →
    resource ∈ ledger.obtained ∧ resource ∉ ledger.gone
  oneNumber : ∀ number other resource, ledger.holder number = some resource →
    ledger.holder other = some resource → number = other
  accounted : ∀ resource ∈ ledger.obtained,
    resource ∈ ledger.gone ∨ ∃ number, ledger.holder number = some resource

theorem sound_empty : (empty : Ledger Number Resource).Sound where
  distinct := List.nodup_nil
  goneOnce := List.nodup_nil
  goneObtained := fun _ member => absurd member List.not_mem_nil
  held := fun number _ held => absurd (held.symm.trans (holder_empty number)) (by simp)
  oneNumber := fun number _ _ held => absurd (held.symm.trans (holder_empty number)) (by simp)
  accounted := fun _ member => absurd member List.not_mem_nil

/-- A new resource under a number that is not in use. -/
theorem Sound.obtain {ledger : Ledger Number Resource} (sound : ledger.Sound) {number : Number}
    {resource : Resource} (free : ledger.holder number = none)
    (fresh : resource ∉ ledger.obtained) : (ledger.obtain number resource).Sound := by
  have old : ∀ other resource', ledger.holder other = some resource' →
      (ledger.obtain number resource).holder other = some resource' := by
    intro other resource' held
    rw [holder_obtain, if_neg, held]
    intro same
    rw [same, free] at held
    cases held
  have origin : ∀ other resource', (ledger.obtain number resource).holder other = some resource' →
      (other = number ∧ resource' = resource) ∨ ledger.holder other = some resource' := by
    intro other resource' held
    rw [holder_obtain] at held
    split at held
    · rename_i same
      exact Or.inl ⟨same, (Option.some.inj held).symm⟩
    · exact Or.inr held
  have unheld : ∀ other, ledger.holder other ≠ some resource :=
    fun other held => fresh (sound.held other resource held).1
  constructor
  · refine List.nodup_append.mpr ⟨sound.distinct, List.nodup_singleton resource, ?_⟩
    intro earlier member last single same
    rw [same, List.mem_singleton.mp single] at member
    exact fresh member
  · exact sound.goneOnce
  · exact fun resource' member => List.mem_append_left _ (sound.goneObtained resource' member)
  · intro other resource' held
    rcases origin other resource' held with ⟨_, same⟩ | before
    · rw [same]
      exact ⟨List.mem_append_right _ List.mem_cons_self,
        fun member => fresh (sound.goneObtained resource member)⟩
    · exact ⟨List.mem_append_left _ (sound.held other resource' before).1,
        (sound.held other resource' before).2⟩
  · intro first second resource' heldFirst heldSecond
    rcases origin first resource' heldFirst with ⟨firstNumber, same⟩ | firstBefore
    · rcases origin second resource' heldSecond with ⟨secondNumber, _⟩ | secondBefore
      · rw [firstNumber, secondNumber]
      · exact absurd (same ▸ secondBefore) (unheld second)
    · rcases origin second resource' heldSecond with ⟨_, same⟩ | secondBefore
      · exact absurd (same ▸ firstBefore) (unheld first)
      · exact sound.oneNumber first second resource' firstBefore secondBefore
  · intro resource' member
    rcases List.mem_append.mp member with earlier | last
    · rcases sound.accounted resource' earlier with gone | ⟨other, held⟩
      · exact Or.inl gone
      · exact Or.inr ⟨other, old other resource' held⟩
    · rw [List.mem_singleton.mp last]
      exact Or.inr ⟨number, by rw [holder_obtain, if_pos rfl]⟩

theorem Sound.release {ledger : Ledger Number Resource} (sound : ledger.Sound) (number : Number) :
    (ledger.release number).Sound := by
  have still : ∀ other resource, (ledger.release number).holder other = some resource →
      other ≠ number ∧ ledger.holder other = some resource := by
    intro other resource held
    rw [holder_release] at held
    split at held
    · cases held
    · rename_i different
      exact ⟨different, held⟩
  have leaves : ∀ resource, resource ∈ (ledger.release number).gone ↔
      resource ∈ ledger.gone ∨ ledger.holder number = some resource := by
    intro resource
    rw [gone_release, List.mem_append, Option.mem_toList]
  constructor
  · exact sound.distinct
  · rw [gone_release]
    cases held : ledger.holder number with
    | none =>
        rw [Option.toList_none, List.append_nil]
        exact sound.goneOnce
    | some resource =>
        refine List.nodup_append.mpr ⟨sound.goneOnce, List.nodup_singleton resource, ?_⟩
        intro earlier member last single same
        rw [same, List.mem_singleton.mp single] at member
        exact (sound.held number resource held).2 member
  · intro resource member
    rcases (leaves resource).mp member with before | held
    · exact sound.goneObtained resource before
    · exact (sound.held number resource held).1
  · intro other resource held
    rcases still other resource held with ⟨different, before⟩
    refine ⟨(sound.held other resource before).1, ?_⟩
    intro member
    rcases (leaves resource).mp member with gone | here
    · exact (sound.held other resource before).2 gone
    · exact different (sound.oneNumber other number resource before here)
  · intro first second resource heldFirst heldSecond
    exact sound.oneNumber first second resource (still first resource heldFirst).2
      (still second resource heldSecond).2
  · intro resource member
    rcases sound.accounted resource member with gone | ⟨other, held⟩
    · exact Or.inl ((leaves resource).mpr (Or.inl gone))
    · by_cases same : other = number
      · exact Or.inl ((leaves resource).mpr (Or.inr (same ▸ held)))
      · exact Or.inr ⟨other, by rw [holder_release, if_neg same, held]⟩

theorem Sound.releaseAll {ledger : Ledger Number Resource} (sound : ledger.Sound)
    (numbers : List Number) : (ledger.releaseAll numbers).Sound := by
  induction numbers generalizing ledger with
  | nil => exact sound
  | cons number rest inductionHypothesis => exact inductionHypothesis (sound.release number)

/-- A ledger whose books are kept balances when nothing is left and nothing
was released in vain. -/
theorem Sound.balanced_iff [DecidableEq Resource] {ledger : Ledger Number Resource}
    (sound : ledger.Sound) :
    ledger.Balanced ↔ (∀ number, ledger.holder number = none) ∧
      ∀ call ∈ ledger.released, call.2 ≠ none := by
  constructor
  · exact fun balanced => ⟨balanced.nothingLeft, balanced.noneInVain⟩
  · rintro ⟨nothingLeft, noneInVain⟩
    refine ⟨?_, nothingLeft, noneInVain⟩
    intro resource obtained
    rcases sound.accounted resource obtained with gone | ⟨number, held⟩
    · exact List.count_eq_one_of_mem sound.goneOnce gone
    · rw [nothingLeft number] at held
      cases held

/-- One round of releases balances a ledger whose books are kept when no
release was in vain before, and the round is of all that is in use, each once. -/
theorem Sound.balanced_releaseAll_iff [DecidableEq Resource] {ledger : Ledger Number Resource}
    (sound : ledger.Sound) (numbers : List Number) :
    (ledger.releaseAll numbers).Balanced ↔
      (∀ call ∈ ledger.released, call.2 ≠ none) ∧ numbers.Nodup ∧
        ∀ number, ledger.holder number ≠ none ↔ number ∈ numbers := by
  have calls := noneInVain_releaseAll_iff ledger numbers
  rw [(sound.releaseAll numbers).balanced_iff]
  constructor
  · rintro ⟨nothingLeft, noneInVain⟩
    rcases calls.mp noneInVain with ⟨before, distinct, held⟩
    refine ⟨before, distinct, fun number => ⟨?_, held number⟩⟩
    intro used
    have closed := nothingLeft number
    rw [holder_releaseAll] at closed
    split at closed
    · assumption
    · exact absurd closed used
  · rintro ⟨before, distinct, exactly⟩
    refine ⟨?_, calls.mpr ⟨before, distinct, fun number member => (exactly number).mpr member⟩⟩
    intro number
    rw [holder_releaseAll]
    split
    · rfl
    · rename_i spared
      by_contra used
      exact spared ((exactly number).mp used)

end Ledger
end Ntrip
