import ChainNode.Proofs.Admission.Account
import ChainNode.Proofs.Admission.Run
import Mathlib.Data.Set.Card
import Mathlib.Order.Bounds.Defs

/-!
# Purging

A purge drops the cool-downs that have ended. What is dropped may be recorded again with an earlier end
than it had, so the records are not the same with and without the purge. But as long as the clock does not
go back, nobody who asks whether a signature is barred can tell the difference.
-/

namespace ChainNode.Admission

namespace Cooldowns

/-- What is done with the cool-downs. -/
inductive Call
  | record (signature : Signature) (expiry : UInt64)
  | ask (signature : Signature) (now : UInt64)
  | purge (now : UInt64)
deriving DecidableEq

namespace Call

/-- The time of the call. To record an end, nobody looks at the clock. -/
def time? : Call → Option UInt64
  | .record _ _ => none
  | .ask _ now => some now
  | .purge now => some now

def isPurge : Call → Bool
  | .purge _ => true
  | _ => false

/-- The clock does not go back from call to call. -/
def Timely (calls : List Call) : Prop := (calls.filterMap time?).Pairwise (· ≤ ·)

instance : DecidablePred Timely := fun calls =>
  inferInstanceAs (Decidable ((calls.filterMap time?).Pairwise (· ≤ ·)))

/-- `thinned` is `calls` without some of the purges. -/
inductive Thinned : (calls thinned : List Call) → Prop
  | nil : Thinned [] []
  | keep (call : Call) {calls thinned : List Call} (rest : Thinned calls thinned) :
      Thinned (call :: calls) (call :: thinned)
  | skip (now : UInt64) {calls thinned : List Call} (rest : Thinned calls thinned) :
      Thinned (.purge now :: calls) thinned

end Call

open Call

def after (c : Cooldowns) : Call → Cooldowns
  | .record s expiry => c.record s expiry
  | .ask _ _ => c
  | .purge now => (c.purge now).2

def run (c : Cooldowns) (calls : List Call) : Cooldowns := calls.foldl after c

/-- What those who ask are told, in order. -/
def answers (c : Cooldowns) : List Call → List Bool
  | [] => []
  | .ask s now :: calls => c.isCoolingDown s now :: c.answers calls
  | call :: calls => (c.after call).answers calls

variable {c d : Cooldowns} {s t : Signature} {now later expiry old : UInt64} {call : Call}
  {calls thinned : List Call}

theorem Distinct.after (h : c.Distinct) (call : Call) : (c.after call).Distinct := by
  cases call with
  | record s expiry => exact h.record s expiry
  | ask s now => exact h
  | purge now => exact h.purge now

theorem distinct_empty : ({} : Cooldowns).Distinct := List.nodup_nil

theorem Distinct.run (h : c.Distinct) (calls : List Call) : (c.run calls).Distinct := by
  induction calls generalizing c with
  | nil => exact h
  | cons call calls ih => exact ih (h.after call)

theorem Distinct.nodup_filed (h : c.Distinct) : (c.filed.map Prod.fst).Nodup := by
  have hkeys : c.filed.map Prod.fst = (c.expiries.map Prod.fst).map signatureText := by
    rw [filed, List.map_map, List.map_map]
    rfl
  rw [hkeys]
  exact List.Nodup.map signatureText_injective h

/-! ## Who is barred -/

theorem le_max_iff (now old expiry : UInt64) : now ≤ max old expiry ↔ now ≤ old ∨ now ≤ expiry := by
  show now ≤ (if old ≤ expiry then expiry else old) ↔ _
  split <;> rename_i hle <;> simp only [UInt64.le_iff_toNat_le] at * <;> omega

/-- A record bars its signature up to its end, on top of whoever was barred before. -/
theorem isCoolingDown_record (c : Cooldowns) (s t : Signature) (expiry now : UInt64) :
    (c.record s expiry).isCoolingDown t now =
      (c.isCoolingDown t now || (decide (t = s) && decide (now ≤ expiry))) := by
  unfold isCoolingDown
  rw [expiry?_record]
  by_cases hs : t = s
  · rw [if_pos hs, hs, decide_eq_true rfl, Bool.true_and]
    cases c.expiry? s with
    | none => rfl
    | some old =>
      show decide (now ≤ max old expiry) = (decide (now ≤ old) || decide (now ≤ expiry))
      rw [← Bool.decide_or]
      exact decide_eq_decide.mpr (le_max_iff now old expiry)
  · rw [if_neg hs, decide_eq_false hs, Bool.false_and, Bool.or_false]

/-- Whoever is barred after the purge is barred without it. -/
theorem Distinct.isCoolingDown_purge (h : c.Distinct) (s : Signature) (hlater : now ≤ later) :
    (c.purge now).2.isCoolingDown s later = c.isCoolingDown s later := by
  unfold isCoolingDown
  rw [h.expiry?_purge]
  cases c.expiry? s with
  | none => rfl
  | some expiry =>
    by_cases hnow : now ≤ expiry
    · simp only [Option.filter_some, decide_eq_true hnow, if_true]
    · -- it is gone, but it had ended anyway
      have hended : ¬ later ≤ expiry := fun hle => hnow (UInt64.le_trans hlater hle)
      simp only [Option.filter_some, decide_eq_false hnow, decide_eq_false hended, Bool.false_eq_true,
        if_false]

/-- From `now` on, both bar the same signatures. -/
def AgreeFrom (now : UInt64) (c d : Cooldowns) : Prop :=
  ∀ s later, now ≤ later → c.isCoolingDown s later = d.isCoolingDown s later

theorem AgreeFrom.mono (h : AgreeFrom now c d) (hlater : now ≤ later) : AgreeFrom later c d :=
  fun s _ hle => h s _ (UInt64.le_trans hlater hle)

theorem AgreeFrom.purge_left (h : AgreeFrom now c d) (hc : c.Distinct) :
    AgreeFrom now (c.purge now).2 d :=
  fun s later hlater => (hc.isCoolingDown_purge s hlater).trans (h s later hlater)

theorem AgreeFrom.symm (h : AgreeFrom now c d) : AgreeFrom now d c :=
  fun s later hlater => (h s later hlater).symm

/-- The same call on both sides keeps the agreement, from the time of the call on. -/
theorem AgreeFrom.after (h : AgreeFrom now c d) (hc : c.Distinct) (hd : d.Distinct) (call : Call)
    (htime : ∀ time, call.time? = some time → now ≤ time) :
    AgreeFrom (call.time?.getD now) (c.after call) (d.after call) := by
  cases call with
  | record s expiry =>
    intro t later hlater
    show (c.record s expiry).isCoolingDown t later = (d.record s expiry).isCoolingDown t later
    rw [isCoolingDown_record, isCoolingDown_record, h t later hlater]
  | ask s time => exact h.mono (htime time rfl)
  | purge time =>
    have hnow : AgreeFrom time c d := h.mono (htime time rfl)
    exact ((hnow.purge_left hc).symm.purge_left hd).symm

/-- Nor does it go back behind `now`. -/
def TimelyFrom (now : UInt64) (calls : List Call) : Prop :=
  (now :: calls.filterMap time?).Pairwise (· ≤ ·)

theorem TimelyFrom.le_time (h : TimelyFrom now (call :: calls)) {time : UInt64}
    (htime : call.time? = some time) : now ≤ time := by
  unfold TimelyFrom at h
  rw [List.filterMap_cons_some htime] at h
  exact List.rel_of_pairwise_cons h List.mem_cons_self

theorem TimelyFrom.rest (h : TimelyFrom now (call :: calls)) :
    TimelyFrom (call.time?.getD now) calls := by
  unfold TimelyFrom at h ⊢
  cases htime : call.time? with
  | none =>
    rw [List.filterMap_cons_none htime] at h
    exact h
  | some time =>
    rw [List.filterMap_cons_some htime] at h
    exact h.of_cons

/-- By induction on what is left out: the two sides agree from the last time on. -/
theorem AgreeFrom.answers (h : AgreeFrom now c d) (hc : c.Distinct) (hd : d.Distinct)
    (hthinned : Thinned calls thinned) (htimely : TimelyFrom now calls) :
    d.answers thinned = c.answers calls := by
  induction hthinned generalizing now c d with
  | nil => rfl
  | @keep call calls thinned rest ih =>
    have hafter := h.after hc hd call fun _ => htimely.le_time
    have hrest := ih hafter (hc.after call) (hd.after call) htimely.rest
    cases call with
    | ask s time =>
      have hanswer : d.isCoolingDown s time = c.isCoolingDown s time := (h s time (htimely.le_time rfl)).symm
      show d.isCoolingDown s time :: _ = c.isCoolingDown s time :: _
      rw [hanswer]
      exact congrArg _ hrest
    | record s expiry => exact hrest
    | purge time => exact hrest
  | @skip last calls thinned rest ih =>
    -- only the side that is purged has moved
    have hpurged : AgreeFrom last (c.purge last).2 d := (h.mono (htimely.le_time rfl)).purge_left hc
    exact ih hpurged (hc.purge last) hd htimely.rest

/-! ## Without purges -/

/-- The latest end that was recorded for the signature; none if nothing was. -/
def Latest (calls : List Call) (s : Signature) : Option UInt64 → Prop
  | none => ∀ expiry, Call.record s expiry ∉ calls
  | some latest => IsGreatest {expiry | Call.record s expiry ∈ calls} latest

theorem Latest.concat_record {latest : Option UInt64} (h : Latest calls s latest) (expiry : UInt64) :
    Latest (calls ++ [.record s expiry]) s (some (latest.elim expiry (max · expiry))) := by
  have hmem (e : UInt64) : Call.record s e ∈ calls ++ [.record s expiry] ↔
      Call.record s e ∈ calls ∨ e = expiry := by
    simp only [List.mem_append, List.mem_singleton, Call.record.injEq, true_and]
  cases latest with
  | none =>
    refine ⟨(hmem expiry).mpr (Or.inr rfl), fun e he => ?_⟩
    rcases (hmem e).mp he with hbefore | rfl
    · exact absurd hbefore (h e)
    · exact UInt64.le_refl e
  | some old =>
    obtain ⟨hold, hgreatest⟩ := h
    constructor
    · show Call.record s (if old ≤ expiry then expiry else old) ∈ calls ++ [.record s expiry]
      split
      · exact (hmem expiry).mpr (Or.inr rfl)
      · exact (hmem old).mpr (Or.inl hold)
    · intro e he
      apply (le_max_iff e old expiry).mpr
      rcases (hmem e).mp he with hbefore | rfl
      · exact Or.inl (hgreatest hbefore)
      · exact Or.inr (UInt64.le_refl e)

theorem Latest.concat_of_ne {latest : Option UInt64} (h : Latest calls s latest)
    (hcall : ∀ expiry, call ≠ .record s expiry) : Latest (calls ++ [call]) s latest := by
  have hmem (e : UInt64) : Call.record s e ∈ calls ++ [call] ↔ Call.record s e ∈ calls := by
    rw [List.mem_append, List.mem_singleton]
    exact or_iff_left fun he => hcall e he.symm
  cases latest with
  | none => exact fun e he => h e ((hmem e).mp he)
  | some old =>
    obtain ⟨hold, hgreatest⟩ := h
    exact ⟨(hmem old).mpr hold, fun e he => hgreatest ((hmem e).mp he)⟩

theorem latest_run (hcalls : ∀ call ∈ calls, call.isPurge = false) (s : Signature) :
    Latest calls s ((run {} calls).expiry? s) := by
  induction calls using List.reverseRecOn with
  | nil => exact fun _ => List.not_mem_nil
  | append_singleton calls call ih =>
    have hbefore := ih fun x hx => hcalls x (List.mem_append_left _ hx)
    have hcall := hcalls call (List.mem_append_right _ List.mem_cons_self)
    have hlast : run {} (calls ++ [call]) = (run {} calls).after call := List.foldl_concat ..
    rw [hlast]
    cases call with
    | record t expiry =>
      show Latest _ s (((run {} calls).record t expiry).expiry? s)
      rw [expiry?_record]
      by_cases hs : s = t
      · rw [if_pos hs, ← hs]
        exact hbefore.concat_record expiry
      · rw [if_neg hs]
        exact hbefore.concat_of_ne fun e he => hs (Call.record.inj he).1.symm
    | ask t now => exact hbefore.concat_of_ne nofun
    | purge now => cases hcall

/-! ## How many there are -/

/-- A signature has one record, so records are counted by their signatures. -/
theorem Distinct.countP_expiries (h : c.Distinct) (test : UInt64 → Bool) :
    c.expiries.countP (fun r => test r.2) =
      {s | ∃ expiry, c.expiry? s = some expiry ∧ test expiry = true}.ncard := by
  let kept := (c.expiries.filter fun r => test r.2).map Prod.fst
  have hnodup : kept.Nodup := List.Nodup.sublist (List.filter_sublist.map _) h
  have hset : {s | ∃ expiry, c.expiry? s = some expiry ∧ test expiry = true} =
      (kept.toFinset : Set Signature) := by
    ext s
    simp only [Set.mem_ofPred_eq, kept, List.coe_toFinset, List.mem_map, List.mem_filter, Prod.exists,
      exists_and_right, exists_eq_right, h.mem_iff]
  rw [hset, Set.ncard_coe_finset, List.toFinset_card_of_nodup hnodup, List.countP_eq_length_filter,
    List.length_map]

theorem fst_purge (c : Cooldowns) (now : UInt64) :
    (c.purge now).1 = c.expiries.countP fun r => decide (r.2 < now) := by
  have hsplit := List.length_eq_countP_add_countP (fun r : Signature × UInt64 => decide (now ≤ r.2))
    (l := c.expiries)
  have hleft : c.expiries.countP (fun r => decide (¬ decide (now ≤ r.2) = true)) =
      c.expiries.countP fun r => decide (r.2 < now) := by
    apply List.countP_congr
    intro r _
    simp only [decide_eq_true_eq, UInt64.not_le]
  show c.expiries.length - (c.expiries.filter fun r => decide (now ≤ r.2)).length = _
  rw [← List.countP_eq_length_filter]
  omega

/-- A purge counts the signatures whose cool-downs have ended. -/
theorem Distinct.fst_purge_eq (h : c.Distinct) (now : UInt64) :
    (c.purge now).1 = {s | ∃ expiry, c.expiry? s = some expiry ∧ expiry < now}.ncard := by
  rw [fst_purge, h.countP_expiries fun expiry => decide (expiry < now)]
  simp only [decide_eq_true_eq]

/-- Just after a purge, the records are those of the signatures that are barred. -/
theorem Distinct.size_purge (h : c.Distinct) (now : UInt64) :
    (c.purge now).2.size = {s | (c.purge now).2.isCoolingDown s now = true}.ncard := by
  have hall : (c.purge now).2.size =
      (c.purge now).2.expiries.countP fun r => decide (now ≤ r.2) := by
    symm
    apply List.countP_eq_length.mpr
    intro r hr
    exact (List.mem_filter.mp hr).2
  rw [hall, (h.purge now).countP_expiries fun expiry => decide (now ≤ expiry)]
  simp only [isCoolingDown_iff, decide_eq_true_eq]

/-- Nothing is on record after a cycle that has cleaned up but what bars a signature. -/
theorem size_cooldowns_cycle {p : Pipeline} (h : p.WellFormed) (order : WalkOrder)
    (hstopped : (p.cycle order).1.stopped = false) :
    (p.cycle order).2.cooldowns.size =
      {s | (p.cycle order).2.isCoolingDown s = true}.ncard := by
  have hcycle := h.purged_cycle order
  rw [hstopped, if_neg Bool.false_ne_true] at hcycle
  have hpurged : (p.cycle order).2.cooldowns = ((p.cooldownsLeft order).purge p.environment.now).2 :=
    congrArg Prod.snd hcycle
  unfold Pipeline.isCoolingDown
  rw [Pipeline.now_cycle, hpurged]
  exact (h.cooldownsLeft order).size_purge p.environment.now

/-- Leaving purges out changes no answer, as long as the clock does not go back. With no purge at all, a
signature is on record up to the latest end that was recorded for it, in whatever order. A purge counts the
cool-downs that have ended. Just after it, and so after every cycle that cleans up, there are as many
records as there are signatures that are barred. All this may be filed under the texts of the signatures,
since no two share one. -/
theorem purging_unobservable :
    (∀ calls thinned, Timely calls → Thinned calls thinned →
      answers {} thinned = answers {} calls) ∧
    (∀ calls, (∀ call ∈ calls, call.isPurge = false) →
      ∀ s, Latest calls s ((run {} calls).expiry? s)) ∧
    (∀ calls now,
      let c := run {} calls
      let left := (c.purge now).2
      (c.filed.map Prod.fst).Nodup ∧ (∀ s, c.filed.lookup (signatureText s) = c.expiry? s) ∧
      (c.purge now).1 = {s | ∃ expiry, c.expiry? s = some expiry ∧ expiry < now}.ncard ∧
      left.size = {s | left.isCoolingDown s now = true}.ncard) ∧
    ∀ config now tip es order,
      let p := (Pipeline.start config now tip).run es
      let q := (p.cycle order).2
      (p.cycle order).1.stopped = false → q.status.invalid = {s | q.isCoolingDown s = true}.ncard := by
  refine ⟨?_, fun calls hcalls s => latest_run hcalls s, ?_, ?_⟩
  · intro calls thinned htimely hthinned
    have hsame : AgreeFrom 0 ({} : Cooldowns) {} := fun _ _ _ => rfl
    have hfrom : TimelyFrom 0 calls := List.pairwise_cons.mpr ⟨fun _ _ => UInt64.zero_le, htimely⟩
    exact hsame.answers distinct_empty distinct_empty hthinned hfrom
  · intro calls now c left
    have hc : c.Distinct := distinct_empty.run calls
    exact ⟨hc.nodup_filed, c.lookup_filed, hc.fst_purge_eq now, hc.size_purge now⟩
  · intro config now tip es order p q hstopped
    have hp : p.WellFormed := (Pipeline.wellFormed_start config now tip).run es
    exact size_cooldowns_cycle hp order hstopped

/-- A cool-down has ended and is recorded again with an end that is still earlier. -/
def recordedAgain : List Call :=
  let s := (Pipeline.sample 1).signature
  [.record s 300, .ask s 300, .purge 301, .record s 250, .ask s 301]

/-- What is on record differs with and without the purge, the answers do not. -/
theorem purging_unobservable_recorded_again :
    let s := (Pipeline.sample 1).signature
    let thinned := recordedAgain.filter fun call => !call.isPurge
    let p := (Pipeline.start { liteMode := true } 1000 (some ⟨1, 86401000⟩)).run
      [.submit (Pipeline.sample 1)]
    let q := (p.cycle {}).2
    answers {} thinned = answers {} recordedAgain ∧ answers {} recordedAgain = [true, false] ∧
    (run {} recordedAgain).expiry? s = some 250 ∧ Latest thinned s (some 300) ∧
    {s | q.isCoolingDown s = true}.ncard = 1 := by
  intro s thinned p q
  have hthinned : Thinned recordedAgain thinned := .keep _ (.keep _ (.skip _ (.keep _ (.keep _ .nil))))
  obtain ⟨hanswers, hlatest, -, hcycle⟩ := purging_unobservable
  have hcount := hcycle { liteMode := true } 1000 (some ⟨1, 86401000⟩) [.submit (Pipeline.sample 1)] {}
    (by decide)
  exact ⟨hanswers _ _ (by decide) hthinned, by decide, by decide, hlatest thinned (by decide) s,
    hcount.symm⟩

end Cooldowns
end ChainNode.Admission
