import ThresholdBls.Proofs.Sharing.Consistency
import ThresholdBls.Proofs.Sharing.HeldPolynomial
import ThresholdBls.Sharing.Round

/-!
# Rounds with dishonest senders

Once a round is dealt, commitments and values are replaced at will.  Enough
recipients whose checks all pass still hold shares of one key.  In a round of
honest senders a replaced value fails the check of its recipient.
-/

open scoped Polynomial

namespace ThresholdBls

variable {S : Suite} {params : Params}

structure Reception.Accepting (reception : Reception S) : Prop where
  checks : ∀ check ∈ reception.checks, check = .ok true
  share : ∃ share, reception.share = .ok share

namespace Round

inductive Replacement (S : Suite)
  | commitment (sender : Nat) (commitment : Commitment S)
  | value (sender recipient : Nat) (value : S.Scalar)

def replace (round : Round S) : Replacement S → Round S
  | .commitment sender commitment => round.replaceCommitment sender commitment
  | .value sender recipient value => round.replaceValue sender recipient value

def valuesAt (round : Round S) (index : UInt16) : List S.Scalar :=
  round.valuesFor (index.toNat - 1)

/-- The participant of an index, or one that stands for none. -/
def participantAt (round : Round S) (index : UInt16) : Participant S :=
  round.participants.getD (index.toNat - 1) ⟨round.params, ⟨[0], List.cons_ne_nil _ _⟩⟩

def receptionAt (round : Round S) (index : UInt16) : Reception S where
  checks := ((round.valuesAt index).zip round.commitments).map fun (value, commitment) =>
    (round.participantAt index).checkValue index value commitment
  share := (round.participantAt index).assembleShare index (round.valuesAt index)
  publicShare := PublicKeyShare.ofCommitments index round.commitments round.params

def shareAt (round : Round S) (index : UInt16) : PrivateKeyShare S :=
  ⟨⟨Residue.sum (round.valuesAt index)⟩, index, round.params⟩

/-! ## What is sent -/

/-- Everyone has sent a commitment, and a value to everyone. -/
structure Sent (params : Params) (round : Round S) : Prop where
  params_eq : round.params = params
  participant_params : ∀ participant ∈ round.participants, participant.params = params
  length_participants : round.participants.length = params.n.toNat
  length_commitments : round.commitments.length = params.n.toNat
  length_values : round.values.length = params.n.toNat
  length_row : ∀ row ∈ round.values, row.length = params.n.toNat

variable {round : Round S}

theorem Sent.replace (h : round.Sent params) (replacement : Replacement S) :
    (round.replace replacement).Sent params := by
  cases replacement with
  | commitment sender commitment =>
      exact { h with length_commitments := List.length_set.trans h.length_commitments }
  | value sender recipient value =>
      refine { h with
        length_values := (List.length_modify _ _ _).trans h.length_values
        length_row := fun row hrow => ?_ }
      obtain ⟨position, hget⟩ := List.mem_iff_getElem?.mp hrow
      simp only [Round.replace, replaceValue, List.getElem?_modify, Option.map_eq_map,
        Option.map_eq_some_iff] at hget
      obtain ⟨old, hold, rfl⟩ := hget
      have hlength := h.length_row old (List.mem_of_getElem? hold)
      split
      · rw [List.length_set, hlength]
      · exact hlength

theorem Sent.foldl_replace (h : round.Sent params) (replacements : List (Replacement S)) :
    (replacements.foldl Round.replace round).Sent params := by
  induction replacements generalizing round with
  | nil => exact h
  | cons replacement rest ih => exact ih (h.replace replacement)

theorem Sent.params_participantAt (h : round.Sent params) (index : UInt16) :
    (round.participantAt index).params = params := by
  rw [participantAt, List.getD_eq_getElem?_getD]
  cases hget : round.participants[index.toNat - 1]? with
  | none => exact h.params_eq
  | some participant => exact h.participant_params participant (List.mem_of_getElem? hget)

theorem Sent.receptions_eq (h : round.Sent params) :
    round.receptions = params.participants.map round.receptionAt := by
  rw [receptions, Params.participants, List.map_map]
  refine List.ext_getElem (by simp [h.length_participants]) fun position hleft hright => ?_
  have hlt : position < params.n.toNat := by simpa using hright
  have hposition := Params.toNat_participant hlt
  simp only [List.getElem_map, List.getElem_zipIdx, List.getElem_range, Function.comp_apply,
    receive, receptionAt, valuesAt, participantAt, hposition, Nat.add_sub_cancel, Nat.zero_add]
  rw [List.getD_eq_getElem _ _ (h.length_participants.symm ▸ hlt)]

theorem Sent.lt_length_row (h : round.Sent params) {index : UInt16}
    (hindex : params.InRange index) {row : List S.Scalar} (hrow : row ∈ round.values) :
    index.toNat - 1 < row.length := by
  obtain ⟨hpos, hle⟩ := hindex
  rw [h.length_row row hrow]
  omega

theorem Sent.valuesAt_eq (h : round.Sent params) {index : UInt16}
    (hindex : params.InRange index) :
    round.valuesAt index = round.values.map (·.getD (index.toNat - 1) 0) := by
  refine List.filterMap_eq_map_iff_forall_eq_some.mpr fun row hrow => ?_
  have hlt := h.lt_length_row hindex hrow
  rw [List.getElem?_eq_getElem hlt, List.getD_eq_getElem _ _ hlt]

theorem Sent.length_valuesAt (h : round.Sent params) {index : UInt16}
    (hindex : params.InRange index) : (round.valuesAt index).length = params.n.toNat := by
  rw [h.valuesAt_eq hindex, List.length_map, h.length_values]

theorem map_modify_of_eq {α β : Type} {f : α → β} {g : α → α} {k : Nat} {l : List α}
    (h : ∀ a ∈ l, f (g a) = f a) : (l.modify k g).map f = l.map f := by
  induction l generalizing k with
  | nil => cases k <;> rfl
  | cons a rest ih =>
      cases k with
      | zero => simp [h a]
      | succ k => simp [ih fun b hb => h b (List.mem_cons_of_mem _ hb)]

theorem map_modify_of_const {α β : Type} {f : α → β} {g : α → α} {k : Nat} {l : List α} {b : β}
    (h : ∀ a ∈ l, f (g a) = b) : (l.modify k g).map f = (l.map f).set k b := by
  induction l generalizing k with
  | nil => simp
  | cons a rest ih =>
      cases k with
      | zero => simp [h a]
      | succ k => simp [ih fun c hc => h c (List.mem_cons_of_mem _ hc)]

theorem zip_set {α β : Type} {l : List α} {bs : List β} {k : Nat} {a : α} {b : β}
    (h : bs[k]? = some b) : (l.set k a).zip bs = (l.zip bs).set k (a, b) := by
  induction l generalizing bs k with
  | nil => rfl
  | cons first rest ih =>
      cases bs with
      | nil => cases h
      | cons second others =>
          cases k with
          | zero =>
              cases h
              rfl
          | succ k => exact congrArg (List.cons _) (ih h)

/-- A replaced value reaches its recipient and no one else. -/
theorem Sent.valuesAt_replaceValue (h : round.Sent params) {index recipient : UInt16}
    (hindex : params.InRange index) (hrecipient : params.InRange recipient) (sender : Nat)
    (value : S.Scalar) :
    (round.replaceValue sender recipient.toNat value).valuesAt index =
      if index = recipient then (round.valuesAt index).set (sender - 1) value
      else round.valuesAt index := by
  have hreplaced : (round.replaceValue sender recipient.toNat value).Sent params :=
    h.replace (.value sender recipient.toNat value)
  rw [hreplaced.valuesAt_eq hindex, h.valuesAt_eq hindex]
  split
  case isTrue hsame =>
    refine map_modify_of_const fun row hrow => ?_
    have hlt := h.lt_length_row hindex hrow
    rw [← hsame, List.getD_eq_getElem _ _ (by rwa [List.length_set]), List.getElem_set_self]
  case isFalse hother =>
    refine map_modify_of_eq fun row hrow => ?_
    have hne : recipient.toNat - 1 ≠ index.toNat - 1 := by
      intro heq
      have hpos := hindex.1
      have hpos' := hrecipient.1
      exact hother (UInt16.toNat_inj.mp (by omega))
    rw [List.getD_eq_getElem?_getD, List.getElem?_set_ne hne, List.getD_eq_getElem?_getD]

theorem Sent.checks_replaceValue (h : round.Sent params) {index recipient : UInt16}
    (hindex : params.InRange index) (hrecipient : params.InRange recipient) {sender : Nat}
    (value : S.Scalar) {commitment : Commitment S}
    (hcommitment : round.commitments[sender - 1]? = some commitment) :
    ((round.replaceValue sender recipient.toNat value).receptionAt index).checks =
      if index = recipient then
        (round.receptionAt index).checks.set (sender - 1)
          ((round.participantAt index).checkValue index value commitment)
      else (round.receptionAt index).checks := by
  rw [receptionAt, h.valuesAt_replaceValue hindex hrecipient]
  split
  case isTrue =>
    have hzip := zip_set (l := round.valuesAt index) (a := value) hcommitment
    exact (congrArg _ hzip).trans List.map_set
  case isFalse => rfl

/-! ## Recipients who accept -/

theorem Sent.accepted (h : round.Sent params) {index : UInt16} (hindex : params.InRange index)
    (haccepting : (round.receptionAt index).Accepting) :
    List.Forall₂ (fun commitment value =>
      (round.participantAt index).checkValue index value commitment = .ok true)
      round.commitments (round.valuesAt index) := by
  refine List.Forall₂.flip (List.forall₂_iff_zip.mpr ⟨?_, fun hmem => ?_⟩)
  · rw [h.length_valuesAt hindex, h.length_commitments]
  · exact haccepting.checks _ (List.mem_map_of_mem hmem)

theorem Sent.share_eq (h : round.Sent params) {index : UInt16}
    (haccepting : (round.receptionAt index).Accepting) :
    (round.receptionAt index).share = .ok (round.shareAt index) := by
  obtain ⟨share, hshare⟩ := haccepting.share
  obtain ⟨-, -, -, rfl⟩ := Participant.assembleShare_eq_ok_iff.mp hshare
  rw [hshare, h.params_participantAt, ← h.params_eq]
  rfl

theorem Sent.completed (h : round.Sent params) {recipients : List UInt16}
    (hsublist : recipients.Sublist params.participants)
    (hthreshold : params.t.toNat ≤ recipients.length)
    (haccepting : ∀ i ∈ recipients, (round.receptionAt i).Accepting) :
    Completed params round.commitments round.participantAt round.valuesAt round.shareAt
      recipients where
  nodup := params.nodup_participants.sublist hsublist
  threshold := hthreshold
  params_eq i _ := h.params_participantAt i
  accepted i hi :=
    h.accepted (Params.mem_participants_iff.mp (hsublist.subset hi)) (haccepting i hi)
  assembled i hi := h.share_eq (haccepting i hi)

variable [S.Lawful]

/-- The receptions lead to one key, and so do the commitments of the round. -/
structure Agrees (round : Round S) (secret : S.Scalar) (receptions : List (Reception S)) :
    Prop where
  shares : ∀ reception ∈ receptions, ∃ share, reception.share = .ok share ∧
    reception.publicShare = .ok share.publicKeyShare
  key : (secret ≠ 0 ∧ recover receptions = .ok ⟨secret⟩ ∧
      round.publicKey = .ok (PrivateKey.publicKey ⟨secret⟩)) ∨
    (secret = 0 ∧ recover receptions = .error .zeroSecret ∧
      round.publicKey = .error .identityElement)

theorem Sent.exists_agrees (h : round.Sent params) :
    ∃ secret : S.Scalar, ∀ accepting : List (Reception S),
      accepting.Sublist round.receptions → params.t.toNat ≤ accepting.length →
      (∀ reception ∈ accepting, reception.Accepting) → round.Agrees secret accepting := by
  obtain ⟨secret, hsecret⟩ := exists_sameKey_of_completed params round.commitments
  refine ⟨secret, fun accepting hsublist hthreshold haccepting => ?_⟩
  rw [h.receptions_eq] at hsublist
  obtain ⟨recipients, hrecipients, rfl⟩ := List.sublist_map_iff.mp hsublist
  rw [List.length_map] at hthreshold
  rw [List.forall_mem_map] at haccepting
  obtain ⟨hpublic, hkey⟩ := hsecret _ _ _ _ (h.completed hrecipients hthreshold haccepting)
  have hrecover : recover (recipients.map round.receptionAt) =
      PrivateKey.ofShares (recipients.map round.shareAt) := by
    rw [recover, List.filterMap_map]
    refine congrArg PrivateKey.ofShares
      (List.filterMap_eq_map_iff_forall_eq_some.mpr fun i hi => ?_)
    simp only [Function.comp_apply, h.share_eq (haccepting i hi), Except.toOption]
  constructor
  case shares =>
    rw [List.forall_mem_map]
    intro i hi
    refine ⟨_, h.share_eq (haccepting i hi), ?_⟩
    rw [receptionAt, h.params_eq]
    exact hpublic i hi
  case key =>
    rw [hrecover]
    rcases hkey with hkey | ⟨hzero, -, hprivate, hpublicKey⟩
    · exact .inl hkey
    · exact .inr ⟨hzero, hprivate, hpublicKey⟩

end Round

/-! ## Honest senders -/

variable [S.Lawful]

noncomputable def Participant.valueAt (sender : Participant S) (index : UInt16) : S.Scalar :=
  (committed sender.polynomial.coefficients).eval (S.abscissa index)

theorem Participant.dealtValues_eq (sender : Participant S) :
    sender.dealtValues =
      if sender.polynomial.leading = 0 then .error .zeroLeadingCoefficient
      else .ok (sender.params.participants.map sender.valueAt) := by
  split
  case isTrue hleading =>
    exact Polynomial.contributions_of_leading_eq_zero sender.params hleading
  case isFalse hleading =>
    exact Polynomial.contributions_eq_ok (Polynomial.getLast?_coefficients _) hleading sender.params

namespace Round

noncomputable def dealt (params : Params) (participants : List (Participant S)) : Round S where
  params
  participants
  commitments := participants.map Participant.commitment
  values := participants.map fun sender => params.participants.map sender.valueAt

variable {participants : List (Participant S)}

theorem deal_eq (hparams : ∀ sender ∈ participants, sender.params = params) :
    deal params participants =
      if ∃ sender ∈ participants, sender.polynomial.leading = 0 then
        .error .zeroLeadingCoefficient
      else .ok (dealt params participants) := by
  have hvalues : ∀ sender ∈ participants, sender.dealtValues =
      if sender.polynomial.leading = 0 then .error .zeroLeadingCoefficient
      else .ok (params.participants.map sender.valueAt) := by
    intro sender hsender
    rw [sender.dealtValues_eq, hparams sender hsender]
  split
  case isTrue hzero =>
    have hall : participants.mapM Participant.dealtValues = .error .zeroLeadingCoefficient := by
      refine mapM_eq_error (fun sender hsender => ?_) ?_
      · rw [hvalues sender hsender]
        split
        · exact .inr rfl
        · exact .inl ⟨_, rfl⟩
      · obtain ⟨sender, hsender, hleading⟩ := hzero
        exact ⟨sender, hsender, (hvalues sender hsender).trans (if_pos hleading)⟩
    rw [deal, hall]
    rfl
  case isFalse hnonzero =>
    push Not at hnonzero
    have hall := mapM_eq_ok fun sender hsender =>
      (hvalues sender hsender).trans (if_neg (hnonzero sender hsender))
    rw [deal, hall]
    rfl

noncomputable def jointPolynomial (participants : List (Participant S)) : S.Scalar[X] :=
  roundPolynomial (participants.map (·.polynomial.coefficients))

omit [S.Lawful] in
theorem ne_nil_of_length_eq (hcount : participants.length = params.n.toNat) : participants ≠ [] :=
  List.ne_nil_of_length_pos (hcount ▸ params.one_le_t.trans params.t_le_n)

section Dealt

variable (hcount : participants.length = params.n.toNat)
  (hfits : ∀ sender ∈ participants, sender.Fits params)

include hcount hfits

theorem sent_dealt : (dealt params participants).Sent params where
  params_eq := rfl
  participant_params sender hsender := (hfits sender hsender).params_eq
  length_participants := hcount
  length_commitments := (List.length_map _).trans hcount
  length_values := (List.length_map _).trans hcount
  length_row row hrow := by
    obtain ⟨sender, -, rfl⟩ := List.mem_map.mp hrow
    rw [List.length_map, Params.participants, List.length_map, List.length_range]

/-- However commitments and values are replaced after the deal, one key belongs to the round, and
enough recipients who accept hold shares of it. -/
theorem exists_agrees_of_replaced {round : Round S} (hdeal : deal params participants = .ok round)
    (replacements : List (Replacement S)) :
    ∃ secret : S.Scalar, ∀ accepting : List (Reception S),
      accepting.Sublist (replacements.foldl replace round).receptions →
      params.t.toNat ≤ accepting.length → (∀ reception ∈ accepting, reception.Accepting) →
      (replacements.foldl replace round).Agrees secret accepting := by
  rw [deal_eq fun sender hsender => (hfits sender hsender).params_eq] at hdeal
  split at hdeal
  · cases hdeal
  · cases hdeal
    exact ((sent_dealt hcount hfits).foldl_replace replacements).exists_agrees

section Reception

variable {index : UInt16} (hindex : params.InRange index)

include hindex

omit hcount hfits in
theorem valuesAt_dealt :
    (dealt params participants).valuesAt index = participants.map (·.valueAt index) := by
  rw [valuesAt, valuesFor, dealt, List.filterMap_map]
  refine List.filterMap_eq_map_iff_forall_eq_some.mpr fun sender _ => ?_
  rw [Function.comp_apply, List.getElem?_map, Params.getElem?_participants hindex, Option.map_some]

theorem checks_dealt :
    ((dealt params participants).receptionAt index).checks = participants.map fun sender =>
      if sender.valueAt index = 0 then .error .zeroSecret else .ok true := by
  have hparams := (sent_dealt hcount hfits).params_participantAt index
  rw [receptionAt, valuesAt_dealt hindex, dealt, List.zip_map', List.map_map]
  refine List.map_congr_left fun sender hsender => ?_
  have hlength := (hfits sender hsender).length_eq
  rw [← hparams] at hlength
  refine (Participant.checkValue_ofPolynomial _ hlength hindex.ne_zero).trans ?_
  rw [Participant.valueAt, decide_eq_true rfl]

theorem share_dealt :
    ((dealt params participants).receptionAt index).share =
      if (jointPolynomial participants).eval (S.abscissa index) = 0 then .error .zeroSecret
      else .ok (.ofValue (jointPolynomial participants) params index) := by
  have hparams := (sent_dealt hcount hfits).params_participantAt index
  have hlength : ((dealt params participants).valuesAt index).length =
      ((dealt params participants).participantAt index).params.n.toNat := by
    rw [hparams, (sent_dealt hcount hfits).length_valuesAt hindex]
  have hsum : Residue.sum ((dealt params participants).valuesAt index) =
      (jointPolynomial participants).eval (S.abscissa index) := by
    rw [valuesAt_dealt hindex, Residue.sum_eq, jointPolynomial, eval_roundPolynomial, List.map_map]
    rfl
  have hempty : ((dealt params participants).valuesAt index).isEmpty = false := by
    rw [valuesAt_dealt hindex]
    simpa using ne_nil_of_length_eq hcount
  change Participant.assembleShare _ _ _ = _
  rw [Participant.assembleShare_of_length index hlength, hparams, Suite.combineContributions,
    hempty, hsum]
  by_cases hvalue : (jointPolynomial participants).eval (S.abscissa index) = 0
  · rw [if_neg Bool.false_ne_true, if_pos hvalue, if_pos hvalue]
    rfl
  · rw [if_neg Bool.false_ne_true, if_neg hvalue, if_neg hvalue]
    exact PrivateKeyShare.create_eq_ok hvalue (Params.requireIndex_of_range hindex)

omit hfits in
theorem publicShare_dealt :
    ((dealt params participants).receptionAt index).publicShare =
      if (jointPolynomial participants).eval (S.abscissa index) = 0 then .error .identityElement
      else .ok (.ofValue (jointPolynomial participants) params index) := by
  have hcommitments : (dealt params participants).commitments =
      (participants.map (·.polynomial.coefficients)).map (.ofScalars S) := by
    rw [List.map_map]
    rfl
  have hne : participants.map (·.polynomial.coefficients) ≠ [] := by
    simpa using ne_nil_of_length_eq hcount
  have hrange := Params.requireIndex_of_range hindex
  change PublicKeyShare.ofCommitments index (dealt params participants).commitments params = _
  rw [hcommitments, PublicKeyShare.ofCommitments_ofScalars index params hne, hrange,
    ← jointPolynomial]
  change PublicKeyShare.create _ index params = _
  split
  case isTrue hvalue =>
    rw [hvalue, PublicKeyShare.create, hrange, PublicKey.create_multiple_zero]
    rfl
  case isFalse hvalue =>
    exact PublicKeyShare.create_eq_ok_iff.mpr
      ⟨hrange, Suite.Lawful.g2_cyclic.requireUsable_multiple hvalue, rfl⟩

theorem accepting_dealt (hvalues : ∀ sender ∈ participants, sender.valueAt index ≠ 0)
    (hsum : (jointPolynomial participants).eval (S.abscissa index) ≠ 0) :
    ((dealt params participants).receptionAt index).Accepting where
  checks := by
    rw [checks_dealt hcount hfits hindex, List.forall_mem_map]
    exact fun sender hsender => if_neg (hvalues sender hsender)
  share := ⟨_, (share_dealt hcount hfits hindex).trans (if_neg hsum)⟩

/-- A value put in place of that of an honest sender fails the check of its recipient. -/
theorem checks_replaceValue_dealt {recipient : UInt16} (hrecipient : params.InRange recipient)
    {position : Nat} {sender : Participant S} (hsender : participants[position]? = some sender)
    (value : S.Scalar) :
    (((dealt params participants).replaceValue (position + 1) recipient.toNat value).receptionAt
        index).checks =
      if index = recipient then
        ((dealt params participants).receptionAt index).checks.set position
          (if value = 0 then .error .zeroSecret else .ok (decide (value = sender.valueAt index)))
      else ((dealt params participants).receptionAt index).checks := by
  have hsent := sent_dealt hcount hfits
  have hcommitment : (dealt params participants).commitments[position + 1 - 1]? =
      some sender.commitment := by
    rw [dealt, List.getElem?_map, Nat.add_sub_cancel, hsender, Option.map_some]
  have hlength := (hfits sender (List.mem_of_getElem? hsender)).length_eq
  rw [← hsent.params_participantAt index] at hlength
  rw [hsent.checks_replaceValue hindex hrecipient value hcommitment]
  congr 2
  exact Participant.checkValue_ofPolynomial value hlength hindex.ne_zero

end Reception

end Dealt

end Round

end ThresholdBls
