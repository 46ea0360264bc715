import ThresholdBls.Proofs.Bn254.Groups
import ThresholdBls.Proofs.ShareSet.Invariant

/-!
# Runs of share sets

Calls of the operations on a share set are made one after the other, in any
order.  The trace of a run determines the shares that are present, and no call
takes one of them away.
-/

namespace ThresholdBls.ShareSet

variable {S : Suite}

inductive Call (S : Suite)
  | add (share : SignatureShare S)
  | merge
  | isReady
  | count
  | get (index : UInt16)

inductive Answer (S : Suite)
  | added
  | merged (signature : Signature S)
  | ready (ready : Bool)
  | counted (count : Nat)
  | found (share : Option (SignatureShare S))
  | failed (error : Error)

def call (set : ShareSet S) : Call S → Answer S × ShareSet S
  | .add share =>
      match set.add share with
      | .ok larger => (.added, larger)
      | .error error => (.failed error, set)
  | .merge =>
      match set.merge with
      | .ok (signature, closed) => (.merged signature, closed)
      | .error error => (.failed error, set)
  | .isReady => (.ready set.isReady, set)
  | .count => (.counted set.count, set)
  | .get index =>
      match set.get index with
      | .ok share => (.found share, set)
      | .error error => (.failed error, set)

def run (set : ShareSet S) : List (Call S) → List (Call S × Answer S) × ShareSet S
  | [] => ([], set)
  | next :: rest =>
      let (trace, final) := run (set.call next).2 rest
      ((next, (set.call next).1) :: trace, final)

def accepted (trace : List (Call S × Answer S)) : List (SignatureShare S) :=
  trace.filterMap fun
    | (.add share, .added) => some share
    | _ => none

/-! ## Single calls -/

theorem call_add_of_ok {set larger : ShareSet S} {share : SignatureShare S}
    (h : set.add share = .ok larger) : set.call (.add share) = (.added, larger) := by
  simp only [call, h]

theorem call_add_of_error {set : ShareSet S} {share : SignatureShare S} {error : Error}
    (h : set.add share = .error error) : set.call (.add share) = (.failed error, set) := by
  simp only [call, h]

theorem call_merge_of_ok {set : ShareSet S} {signature : Signature S}
    (h : set.signature = .ok signature) :
    set.call .merge = (.merged signature, { set with merged := true }) := by
  simp only [call, merge, h]
  rfl

theorem call_merge_of_error {set : ShareSet S} {error : Error}
    (h : set.signature = .error error) : set.call .merge = (.failed error, set) := by
  simp only [call, merge, h]
  rfl

theorem call_get (set : ShareSet S) (index : UInt16) :
    set.call (.get index) =
      (if index = 0 ∨ set.params.t < index then .failed (.indexOutOfRange index)
        else .found (set.shares.get? index), set) := by
  simp only [call, get]
  split
  · rename_i h
    split at h
    · cases h
    · rename_i hindex
      cases h
      rw [if_neg hindex]
  · rename_i h
    split at h
    · rename_i hindex
      cases h
      rw [if_pos hindex]
    · cases h

/-- A call adds a share, or closes a set that merges, or changes nothing. -/
theorem call_cases (set : ShareSet S) (next : Call S) :
    (∃ share larger, next = .add share ∧ set.add share = .ok larger ∧
        set.call next = (.added, larger)) ∨
      (∃ signature, next = .merge ∧ set.signature = .ok signature ∧
        set.call next = (.merged signature, { set with merged := true })) ∨
      (set.call next).2 = set ∧ (set.call next).1 ≠ .added := by
  cases next with
  | add share =>
      cases h : set.add share with
      | ok larger => exact .inl ⟨share, larger, rfl, h, call_add_of_ok h⟩
      | error error =>
          refine .inr (.inr ?_)
          rw [call_add_of_error h]
          exact ⟨rfl, nofun⟩
  | merge =>
      cases h : set.signature with
      | ok signature => exact .inr (.inl ⟨signature, rfl, rfl, call_merge_of_ok h⟩)
      | error error =>
          refine .inr (.inr ?_)
          rw [call_merge_of_error h]
          exact ⟨rfl, nofun⟩
  | isReady => exact .inr (.inr ⟨rfl, nofun⟩)
  | count => exact .inr (.inr ⟨rfl, nofun⟩)
  | get index =>
      refine .inr (.inr ?_)
      rw [call_get]
      refine ⟨rfl, ?_⟩
      dsimp only
      split
      · exact nofun
      · exact nofun

theorem call_of_failed {set : ShareSet S} {next : Call S} {error : Error}
    (h : (set.call next).1 = .failed error) : (set.call next).2 = set := by
  rcases call_cases set next with ⟨share, larger, -, -, hcall⟩ | ⟨signature, -, -, hcall⟩ | hsame
  · rw [hcall] at h
    cases h
  · rw [hcall] at h
    cases h
  · exact hsame.1

theorem call_params (set : ShareSet S) (next : Call S) :
    (set.call next).2.params = set.params := by
  rcases call_cases set next with ⟨share, larger, -, hadd, hcall⟩ | ⟨signature, -, -, hcall⟩ | hsame
  · obtain ⟨-, -, -, rfl⟩ := add_eq_ok_iff.mp hadd
    rw [hcall]
  · rw [hcall]
  · rw [hsame.1]

theorem call_of_merged {set : ShareSet S} (h : set.merged = true) (next : Call S) :
    (set.call next).2 = set := by
  rcases call_cases set next with ⟨share, larger, -, hadd, -⟩ | ⟨signature, -, -, hcall⟩ | hsame
  · obtain ⟨-, hopen, -⟩ := add_eq_ok_iff.mp hadd
    rw [h] at hopen
    cases hopen
  · rw [hcall, ← h]
  · exact hsame.1

theorem call_get?_eq_some {set : ShareSet S} {index : UInt16} {share : SignatureShare S}
    (h : set.shares.get? index = some share) (next : Call S) :
    (set.call next).2.shares.get? index = some share := by
  rcases call_cases set next with ⟨added, larger, -, hadd, hcall⟩ | ⟨signature, -, -, hcall⟩ | hsame
  · obtain ⟨-, -, hfresh, rfl⟩ := add_eq_ok_iff.mp hadd
    have hne : index ≠ added.index := by
      rintro rfl
      rw [IndexMap.contains_eq_isSome, h] at hfresh
      cases hfresh
    rw [hcall]
    exact (IndexMap.get?_insert_of_ne hfresh hne added).trans h
  · rw [hcall]
    exact h
  · rw [hsame.1]
    exact h

theorem Valid.call {set : ShareSet S} (hset : set.Valid) {next : Call S}
    (hnext : ∀ share, next = .add share → share.WellFormed) : (set.call next).2.Valid := by
  rcases call_cases set next with ⟨share, larger, rfl, hadd, hcall⟩ |
    ⟨signature, -, hsignature, hcall⟩ | hsame
  · rw [hcall]
    exact hset.add (hnext share rfl) hadd
  · have hready : set.isReady = true := by
      by_contra hready
      rw [Bool.not_eq_true] at hready
      rw [signature_of_not_ready hready] at hsignature
      cases hsignature
    rw [hcall]
    exact ⟨hset.index_eq, hset.params_eq, hset.wellFormed, fun _ => (isReady_iff set).mp hready⟩
  · rw [hsame.1]
    exact hset

/-! ## The shares of a trace -/

theorem accepted_of_ne {next : Call S} {answer : Answer S} (h : answer ≠ .added) :
    accepted [(next, answer)] = [] := by
  cases answer with
  | added => exact absurd rfl h
  | _ => cases next <;> rfl

/-- The shares of a set are the first ones of their indices in a list of as many. -/
structure Recorded (set : ShareSet S) (history : List (SignatureShare S)) : Prop where
  get?_eq : ∀ index, set.shares.get? index = history.find? fun share => share.index == index
  count_eq : set.count = history.length

theorem Recorded.call {set : ShareSet S} {history : List (SignatureShare S)}
    (h : set.Recorded history) (next : Call S) :
    (set.call next).2.Recorded (history ++ accepted [(next, (set.call next).1)]) := by
  rcases call_cases set next with ⟨share, larger, rfl, hadd, hcall⟩ |
    ⟨signature, rfl, -, hcall⟩ | hsame
  · obtain ⟨-, -, hfresh, rfl⟩ := add_eq_ok_iff.mp hadd
    rw [hcall]
    constructor
    · intro index
      change (set.shares.insert share.index share).get? index = (history ++ [share]).find? _
      rw [List.find?_append, ← h.get?_eq]
      by_cases hindex : index = share.index
      · subst hindex
        have hnone : set.shares.get? share.index = none := by
          rw [IndexMap.contains_eq_isSome] at hfresh
          simpa using hfresh
        rw [IndexMap.get?_insert_self hfresh, hnone]
        simp
      · have hother : [share].find? (fun share => share.index == index) = none := by
          simpa using Ne.symm hindex
        rw [IndexMap.get?_insert_of_ne hfresh hindex, hother, Option.or_none]
    · change (set.shares.insert share.index share).size = (history ++ [share]).length
      rw [IndexMap.size_insert hfresh, List.length_append, ← h.count_eq]
      rfl
  · rw [hcall]
    change ShareSet.Recorded _ (history ++ [])
    rw [List.append_nil]
    exact ⟨h.get?_eq, h.count_eq⟩
  · rw [hsame.1, accepted_of_ne hsame.2, List.append_nil]
    exact h

/-! ## Runs -/

theorem run_of_merged {set : ShareSet S} (h : set.merged = true) (calls : List (Call S)) :
    (set.run calls).2 = set := by
  induction calls with
  | nil => rfl
  | cons next rest ih =>
      rw [run, call_of_merged h]
      exact ih

theorem run_params (set : ShareSet S) (calls : List (Call S)) :
    (set.run calls).2.params = set.params := by
  induction calls generalizing set with
  | nil => rfl
  | cons next rest ih => exact (ih _).trans (call_params set next)

theorem run_get?_eq_some {set : ShareSet S} {index : UInt16} {share : SignatureShare S}
    (h : set.shares.get? index = some share) (calls : List (Call S)) :
    (set.run calls).2.shares.get? index = some share := by
  induction calls generalizing set with
  | nil => exact h
  | cons next rest ih => exact ih (call_get?_eq_some h next)

theorem Valid.run {set : ShareSet S} (hset : set.Valid) {calls : List (Call S)}
    (hcalls : ∀ share, .add share ∈ calls → share.WellFormed) : (set.run calls).2.Valid := by
  induction calls generalizing set with
  | nil => exact hset
  | cons next rest ih =>
      have hnext : (set.call next).2.Valid := by
        refine hset.call fun share hshare => hcalls share ?_
        rw [hshare]
        exact List.mem_cons_self
      exact ih hnext fun share hshare => hcalls share (List.mem_cons_of_mem _ hshare)

theorem Recorded.run {set : ShareSet S} {history : List (SignatureShare S)}
    (h : set.Recorded history) (calls : List (Call S)) :
    (set.run calls).2.Recorded (history ++ accepted (set.run calls).1) := by
  induction calls generalizing set history with
  | nil => simpa [ShareSet.run, accepted] using h
  | cons next rest ih =>
      have hrest := ih (h.call next)
      rw [List.append_assoc, accepted, accepted, ← List.filterMap_append] at hrest
      exact hrest

theorem recorded_empty (params : Params) : (empty params : ShareSet S).Recorded [] where
  get?_eq _ := rfl
  count_eq := rfl

/-! ## The state machine -/

/-- What holds of the set that a trace leads to, and of every call that may come next. -/
structure Governed [S.Lawful] (params : Params) (trace : List (Call S × Answer S)) (set : ShareSet S) :
    Prop where
  params_eq : set.params = params
  own_index : ∀ entry ∈ set.shares.entries, entry.1 = entry.2.index
  index_range : ∀ entry ∈ set.shares.entries, 1 ≤ entry.1.toNat ∧ entry.1.toNat ≤ params.n.toNat
  share_params : ∀ entry ∈ set.shares.entries, entry.2.params = params
  one_per_index : (set.shares.entries.map Prod.fst).Nodup
  first_accepted : ∀ index,
    set.shares.get? index = (accepted trace).find? fun share => share.index == index
  count_accepted : set.count = (accepted trace).length
  never_lost : ∀ later index share, set.shares.get? index = some share →
    (set.run later).2.shares.get? index = some share
  count_of_merged : set.merged = true → params.t.toNat ≤ set.count
  add_answer : ∀ share, (set.call (.add share)).1 =
    if params ≠ share.params then .failed .thresholdMismatch
    else if set.merged = true then .failed .alreadyMerged
    else if (set.shares.get? share.index).isSome = true then
      .failed (.duplicatedIndex share.index)
    else .added
  failed_unchanged : ∀ next error, (set.call next).1 = .failed error → (set.call next).2 = set
  ready_answer : (set.call .isReady).1 = .ready (decide (params.t.toNat ≤ set.count))
  count_answer : (set.call .count).1 = .counted (accepted trace).length
  merge_too_few : (set.call .merge).1 = .failed (.tooFewShares params.t.toNat set.count) ↔
    set.isReady = false
  merge_ready : set.isReady = true →
    (∃ signature, (set.call .merge).1 = .merged signature) ∨
      (set.call .merge).1 = .failed .identityElement
  merge_combined : set.isReady = true → ∃ (ks : List S.Scalar) (lowest : SignatureShare S),
    set.used.map (·.signature.element) = ks.map (fun k => S.g1.generator * k) ∧
      set.shares.values.head? = some lowest ∧
      (set.call .merge).1 =
        if Suite.interpolate ((set.used.map (·.index)).map S.abscissa) ks = 0 then
          .failed .identityElement
        else .merged ⟨S.g1.generator *
          Suite.interpolate ((set.used.map (·.index)).map S.abscissa) ks, lowest.signature.hint⟩
  merge_final : ∀ signature, (set.call .merge).1 = .merged signature → ∀ later,
    ((set.call .merge).2.run later).2.shares = set.shares ∧
      (((set.call .merge).2.run later).2.call .merge).1 = .merged signature
  get_answer : ∀ index, (set.call (.get index)).1 =
    if index = 0 ∨ params.t < index then .failed (.indexOutOfRange index)
    else .found (set.shares.get? index)

theorem call_add_answer (set : ShareSet S) (share : SignatureShare S) :
    (set.call (.add share)).1 =
      if set.params ≠ share.params then .failed .thresholdMismatch
      else if set.merged = true then .failed .alreadyMerged
      else if (set.shares.get? share.index).isSome = true then
        .failed (.duplicatedIndex share.index)
      else .added := by
  rw [← IndexMap.contains_eq_isSome]
  have hadd := add_eq set share
  split at hadd
  · rename_i hparams
    rw [call_add_of_error hadd, if_pos hparams]
  rename_i hparams
  rw [if_neg hparams]
  split at hadd
  · rename_i hmerged
    rw [call_add_of_error hadd, if_pos hmerged]
  rename_i hmerged
  rw [if_neg hmerged]
  split at hadd
  · rename_i hpresent
    rw [call_add_of_error hadd, if_pos hpresent]
  · rename_i hfresh
    rw [call_add_of_ok hadd, if_neg hfresh]

theorem call_merge_combined {set : ShareSet S} (hset : set.Valid) [S.Lawful]
    (h : set.isReady = true) :
    ∃ (ks : List S.Scalar) (lowest : SignatureShare S),
      set.used.map (·.signature.element) = ks.map (fun k => S.g1.generator * k) ∧
        set.shares.values.head? = some lowest ∧
        (set.call .merge).1 =
          if Suite.interpolate ((set.used.map (·.index)).map S.abscissa) ks = 0 then
            .failed .identityElement
          else .merged ⟨S.g1.generator *
            Suite.interpolate ((set.used.map (·.index)).map S.abscissa) ks,
              lowest.signature.hint⟩ := by
  obtain ⟨ks, lowest, helements, hlowest, hsignature⟩ := hset.exists_signature_eq h
  refine ⟨ks, lowest, helements, hlowest, ?_⟩
  split at hsignature
  case isTrue hzero =>
    rw [call_merge_of_error hsignature, if_pos hzero]
  case isFalse hnonzero =>
    rw [call_merge_of_ok hsignature, if_neg hnonzero]

theorem call_merge_ready {set : ShareSet S} (hset : set.Valid) [S.Lawful]
    (h : set.isReady = true) :
    (∃ signature, (set.call .merge).1 = .merged signature) ∨
      (set.call .merge).1 = .failed .identityElement := by
  obtain ⟨ks, lowest, -, -, hmerge⟩ := call_merge_combined hset h
  split at hmerge
  · exact .inr hmerge
  · exact .inl ⟨_, hmerge⟩

theorem call_merge_too_few_iff {set : ShareSet S} (hset : set.Valid) [S.Lawful] :
    (set.call .merge).1 = .failed (.tooFewShares set.params.t.toNat set.count) ↔
      set.isReady = false := by
  constructor
  · intro h
    by_contra hready
    rw [Bool.not_eq_false] at hready
    rcases call_merge_ready hset hready with ⟨signature, hmerge⟩ | hmerge
    · cases hmerge.symm.trans h
    · cases hmerge.symm.trans h
  · intro h
    rw [call_merge_of_error (signature_of_not_ready h)]

theorem run_after_merge {set : ShareSet S} {signature : Signature S}
    (h : (set.call .merge).1 = .merged signature) (later : List (Call S)) :
    ((set.call .merge).2.run later).2.shares = set.shares ∧
      (((set.call .merge).2.run later).2.call .merge).1 = .merged signature := by
  cases hsignature : set.signature with
  | error error =>
      rw [call_merge_of_error hsignature] at h
      cases h
  | ok found =>
      rw [call_merge_of_ok hsignature] at h
      cases h
      rw [call_merge_of_ok hsignature]
      -- The signature does not depend on whether the set is merged.
      have hclosed : ({ set with merged := true } : ShareSet S).signature = .ok signature :=
        hsignature
      have hrun : (({ set with merged := true } : ShareSet S).run later).2 =
          { set with merged := true } := run_of_merged rfl later
      rw [hrun, call_merge_of_ok hclosed]
      exact ⟨rfl, rfl⟩

theorem Valid.governed [S.Lawful] {params : Params} {trace : List (Call S × Answer S)}
    {set : ShareSet S} (hset : set.Valid) (hparams : set.params = params)
    (htrace : set.Recorded (accepted trace)) : Governed params trace set := by
  subst hparams
  refine {
    params_eq := rfl
    own_index := hset.index_eq
    index_range := ?_
    share_params := hset.params_eq
    one_per_index := set.shares.nodup_keys
    first_accepted := htrace.get?_eq
    count_accepted := htrace.count_eq
    never_lost := fun later _ _ h => run_get?_eq_some h later
    count_of_merged := hset.count_of_merged
    add_answer := call_add_answer set
    failed_unchanged := fun _ _ => call_of_failed
    ready_answer := rfl
    count_answer := congrArg Answer.counted htrace.count_eq
    merge_too_few := call_merge_too_few_iff hset
    merge_ready := call_merge_ready hset
    merge_combined := call_merge_combined hset
    merge_final := fun _ => run_after_merge
    get_answer := fun index => congrArg Prod.fst (call_get set index) }
  intro entry hentry
  have hshare := hset.wellFormed entry hentry
  have hindex := hset.index_eq entry hentry
  have hle := UInt16.le_iff_toNat_le.mp hshare.index_le
  rw [hset.params_eq entry hentry] at hle
  rw [hindex]
  refine ⟨?_, hle⟩
  have hne : entry.2.index.toNat ≠ 0 := fun h => hshare.index_ne_zero (UInt16.toNat_inj.mp h)
  omega

/-- Every run from the empty set is governed. -/
theorem governed_run (params : Params) (calls : List (Call Bn254.suite))
    (hcalls : ∀ share, .add share ∈ calls → share.Checked) :
    Governed params ((empty params).run calls).1 ((empty params).run calls).2 := by
  have hvalid : ((empty params).run calls).2.Valid :=
    (valid_empty params).run fun share hshare => (hcalls share hshare).wellFormed
  exact hvalid.governed (run_params _ calls) ((recorded_empty params).run calls)

def generatorShare : SignatureShare Bn254.suite :=
  ⟨⟨Bn254.g1Generator, ⟨Residue.ofNat Bn254.fieldSize 2, 0⟩⟩, 1, ⟨1, 2, by decide, by decide⟩⟩

theorem checked_generatorShare : generatorShare.Checked := by
  have hcreate : SignatureShare.create (S := Bn254.suite) Bn254.g1Generator
      generatorShare.signature.hint 1 generatorShare.params = .ok generatorShare := by
    decide +kernel
  exact .created hcreate

theorem governed_run_generatorShare :
    ((empty generatorShare.params).run [.merge, .add generatorShare, .merge]).1 =
        [(.merge, .failed (.tooFewShares 1 0)), (.add generatorShare, .added),
          (.merge, .merged generatorShare.signature)] ∧
      Governed generatorShare.params
        ((empty generatorShare.params).run [.merge, .add generatorShare, .merge]).1
        ((empty generatorShare.params).run [.merge, .add generatorShare, .merge]).2 := by
  have hfew : (empty generatorShare.params).signature =
      (.error (.tooFewShares 1 0) : Except Error (Signature Bn254.suite)) :=
    signature_of_not_ready rfl
  obtain ⟨larger, hadd⟩ : ∃ larger, (empty generatorShare.params).add generatorShare = .ok larger :=
    ⟨_, add_eq_ok_iff.mpr ⟨rfl, rfl, rfl, rfl⟩⟩
  have hsignature : larger.signature = .ok generatorShare.signature := by
    obtain ⟨-, -, -, rfl⟩ := add_eq_ok_iff.mp hadd
    decide +kernel
  refine ⟨?_, governed_run generatorShare.params [.merge, .add generatorShare, .merge] ?_⟩
  · rw [run, call_merge_of_error hfew, run, call_add_of_ok hadd, run, call_merge_of_ok hsignature]
    rfl
  · intro share hshare
    have hsame : share = generatorShare := by simpa using hshare
    rw [hsame]
    exact checked_generatorShare

end ThresholdBls.ShareSet
