import ChainNode.Proofs.Admission.Importing

/-!
# What the repository keeps

A repository that is never told to save blindly looks before it saves, so it stores each signature once.
What it answers about one signature depends on nothing that it is asked about others, and it stores
exactly the transactions that it says are saved.
-/

namespace ChainNode.Admission

namespace SaveRequest

def isAnswered (q : SaveRequest) : Bool :=
  match q.answer with
  | .ok _ => true
  | .error _ => false

def isSaved (q : SaveRequest) : Bool :=
  match q.answer with
  | .ok .saved => true
  | _ => false

def isKnown (q : SaveRequest) : Bool :=
  match q.answer with
  | .ok .alreadyExists => true
  | _ => false

def isRefused (q : SaveRequest) : Bool :=
  match q.answer with
  | .ok (.invalid _) => true
  | _ => false

theorem exists_answer {q : SaveRequest} (h : q.isAnswered = true) :
    ∃ result, q.answer = .ok result := by
  unfold isAnswered at h
  split at h
  · rename_i result hok
    exact ⟨result, hok⟩
  · cases h

theorem isSaved_of_ok {q : SaveRequest} {result : ImportResult} (h : q.answer = .ok result) :
    q.isSaved = decide (result = .saved) := by
  rw [isSaved, h]
  cases result <;> rfl

theorem isSaved_of_error {q : SaveRequest} {e : RepositoryError} (h : q.answer = .error e) :
    q.isSaved = false := by
  rw [isSaved, h]

theorem isSaved_of_unanswered {q : SaveRequest} (h : q.isAnswered = false) : q.isSaved = false := by
  cases hanswer : q.answer with
  | ok result =>
    rw [isAnswered, hanswer] at h
    cases h
  | error e => exact isSaved_of_error hanswer

end SaveRequest

/-- The transactions that were saved, in the order of the requests. -/
def savedAmong (qs : List SaveRequest) : List Transaction :=
  (qs.filter (·.isSaved)).map (·.transaction)

theorem savedAmong_singleton (q : SaveRequest) :
    savedAmong [q] = if q.isSaved then [q.transaction] else [] := by
  rw [savedAmong, List.filter_singleton]
  cases q.isSaved <;> rfl

theorem savedAmong_append (qs rs : List SaveRequest) :
    savedAmong (qs ++ rs) = savedAmong qs ++ savedAmong rs := by
  rw [savedAmong, List.filter_append, List.map_append]
  rfl

theorem length_savedAmong (qs : List SaveRequest) :
    (savedAmong qs).length = qs.countP (·.isSaved) := by
  rw [savedAmong, List.length_map, List.countP_eq_length_filter]

namespace Repository

variable {r : Repository} {s : Signature} {tx : Transaction}

theorem contains_iff : r.contains s = true ↔ ∃ tx ∈ r.stored, tx.signature = s := by
  rw [contains, List.any_eq_true]
  simp only [decide_eq_true_eq]

theorem mem_of_fst_takeScript {result : ImportResult} {scripts : List (Signature × ImportResult)}
    (h : (takeScript s scripts).1 = some result) : (s, result) ∈ scripts := by
  induction scripts with
  | nil => cases h
  | cons x scripts ih =>
    obtain ⟨t, kept⟩ := x
    unfold takeScript at h
    split at h
    · rename_i hts
      cases h
      rw [hts]
      exact List.mem_cons_self
    · exact List.mem_cons_of_mem _ (ih h)

theorem snd_takeScript_subset (s : Signature) (scripts : List (Signature × ImportResult)) :
    (takeScript s scripts).2 ⊆ scripts := by
  induction scripts with
  | nil => exact List.Subset.refl _
  | cons x scripts ih =>
    obtain ⟨t, kept⟩ := x
    unfold takeScript
    split
    · exact List.subset_cons_self _ _
    · exact List.cons_subset_cons _ ih

/-- No signature is stored twice, and no answer that is kept would store one unseen. -/
structure StoresOnce (r : Repository) : Prop where
  stored : (r.stored.map (·.signature)).Nodup
  scripts : ∀ x ∈ r.scripts, x.2 ≠ .saved

theorem StoresOnce.store (h : r.StoresOnce) (hnew : r.contains tx.signature = false) :
    (r.store tx).StoresOnce := by
  refine ⟨?_, h.scripts⟩
  show ((r.stored ++ [tx]).map (·.signature)).Nodup
  rw [List.map_append, List.map_singleton, ← List.concat_eq_append]
  refine List.Nodup.concat ?_ h.stored
  intro hmem
  rw [contains_iff.mpr (List.mem_map.mp hmem)] at hnew
  cases hnew

theorem StoresOnce.respond (h : r.StoresOnce) (tx : Transaction) : (r.respond tx).2.StoresOnce := by
  unfold Repository.respond
  split
  · rename_i scripts htake
    have hmem := mem_of_fst_takeScript (congrArg Prod.fst htake)
    exact absurd rfl (h.scripts _ hmem)
  · rename_i result scripts hne htake
    have hsub : scripts ⊆ r.scripts := by
      have hleft := snd_takeScript_subset tx.signature r.scripts
      rwa [htake] at hleft
    exact ⟨h.stored, fun x hx => h.scripts x (hsub hx)⟩
  · split
    · exact h
    · rename_i hnew
      exact h.store (Bool.not_eq_true _ |>.mp hnew)

theorem StoresOnce.save (h : r.StoresOnce) (tx : Transaction) (cache : UnconfirmedCache) :
    (r.save tx cache).2.StoresOnce := by
  have htry : (r.trySave tx).2.StoresOnce := by
    unfold trySave
    split
    · exact h
    · split
      · exact h
      · have hless : { r with savesLeft := r.savesLeft.map (· - 1) }.StoresOnce :=
          ⟨h.stored, h.scripts⟩
        exact hless.respond tx
  exact ⟨htry.stored, htry.scripts⟩

theorem StoresOnce.replay (h : r.StoresOnce) (qs : List SaveRequest) : (r.replay qs).StoresOnce := by
  induction qs generalizing r with
  | nil => exact h
  | cons q qs ih => exact ih (h.save q.transaction q.cache)

/-! ## What it answers -/

/-- The answer to a request for `tx` that gets through. -/
def answerFor (r : Repository) (tx : Transaction) : ImportResult := (r.respond tx).1

/-- These are the requests that the repository keeps when it is asked all this. -/
def Logs (r : Repository) (qs : List SaveRequest) : Prop :=
  (r.replay qs).requests = r.requests ++ qs

section
variable {t : Signature} {u : Transaction} {cache : UnconfirmedCache} {q : SaveRequest}
  {qs : List SaveRequest} {result : ImportResult} {scripts : List (Signature × ImportResult)}

theorem takeScript_of_none (h : (takeScript s scripts).1 = none) :
    (takeScript s scripts).2 = scripts := by
  induction scripts with
  | nil => rfl
  | cons x scripts ih =>
    obtain ⟨t, kept⟩ := x
    unfold takeScript at h ⊢
    split
    · rename_i hts
      rw [if_pos hts] at h
      cases h
    · rename_i hts
      rw [if_neg hts] at h
      rw [ih h]

theorem fst_takeScript_takeScript (h : s ≠ t) (scripts : List (Signature × ImportResult)) :
    (takeScript s (takeScript t scripts).2).1 = (takeScript s scripts).1 := by
  induction scripts with
  | nil => rfl
  | cons x scripts ih =>
    obtain ⟨u, kept⟩ := x
    simp only [takeScript]
    by_cases hu : u = t
    · have hus : ¬ u = s := fun hs => h (hs.symm.trans hu)
      rw [if_pos hu, if_neg hus]
    · rw [if_neg hu]
      simp only [takeScript]
      by_cases hus : u = s
      · rw [if_pos hus, if_pos hus]
      · rw [if_neg hus, if_neg hus, ih]

theorem snd_takeScript_comm (s t : Signature) (scripts : List (Signature × ImportResult)) :
    (takeScript s (takeScript t scripts).2).2 = (takeScript t (takeScript s scripts).2).2 := by
  induction scripts with
  | nil => rfl
  | cons x scripts ih =>
    obtain ⟨u, kept⟩ := x
    by_cases hus : u = s
    · by_cases hut : u = t
      · rw [← hus, ← hut]
      · have hst : ¬ s = t := fun hs => hut (hus.trans hs)
        simp [takeScript, hus, hst]
    · by_cases hut : u = t
      · have hts : ¬ t = s := fun ht => hus (hut.trans ht)
        simp [takeScript, hut, hts]
      · simp [takeScript, hus, hut, ih]

theorem answerFor_eq (r : Repository) (tx : Transaction) :
    r.answerFor tx = ((takeScript tx.signature r.scripts).1).getD
      (if r.contains tx.signature then .alreadyExists else .saved) := by
  unfold answerFor respond
  split
  · rename_i scripts h
    rw [h]
    rfl
  · rename_i result scripts _ h
    rw [h]
    rfl
  · rename_i scripts h
    rw [h]
    split <;> rfl

theorem scripts_respond (r : Repository) (tx : Transaction) :
    (r.respond tx).2.scripts = (takeScript tx.signature r.scripts).2 := by
  unfold respond
  split
  · rename_i scripts h
    rw [h]
    rfl
  · rename_i result scripts _ h
    rw [h]
  · rename_i scripts h
    have hnone := takeScript_of_none (congrArg Prod.fst h)
    split <;> exact hnone.symm

theorem stored_respond (r : Repository) (tx : Transaction) :
    (r.respond tx).2.stored = r.stored ++ if r.answerFor tx = .saved then [tx] else [] := by
  unfold answerFor respond
  split
  · rfl
  · rename_i result scripts hne h
    have hresult : result ≠ .saved := hne
    rw [if_neg hresult, List.append_nil]
  · split
    · exact (List.append_nil _).symm
    · rfl

theorem respond_savesLeft (r : Repository) (savesLeft : Option Nat) (tx : Transaction) :
    { r with savesLeft }.respond tx = ((r.respond tx).1, { (r.respond tx).2 with savesLeft }) := by
  unfold respond
  dsimp only
  split
  · rfl
  · rfl
  · split
    · rename_i hknown
      change r.contains tx.signature = true at hknown
      rw [if_pos hknown]
    · rename_i hnew
      change ¬ r.contains tx.signature = true at hnew
      rw [if_neg hnew]
      rfl

/-- A request is kept. If it gets through it is answered, else nothing changes. -/
theorem save_cases (r : Repository) (tx : Transaction) (cache : UnconfirmedCache) :
    (∃ e, (r.request tx cache).answer = .error e ∧
      (r.save tx cache).2 = { r with requests := r.requests ++ [r.request tx cache] }) ∨
    ((r.request tx cache).answer = .ok (r.answerFor tx) ∧
      (r.save tx cache).2 = { (r.respond tx).2 with
        savesLeft := r.savesLeft.map (· - 1)
        requests := r.requests ++ [r.request tx cache] }) := by
  have hsave : (r.save tx cache).2 =
      { (r.trySave tx).2 with requests := r.requests ++ [r.request tx cache] } := rfl
  have hanswer : (r.request tx cache).answer = (r.trySave tx).1 := rfl
  rw [hsave, hanswer]
  unfold trySave
  split
  · exact Or.inl ⟨offline, rfl, rfl⟩
  · split
    · exact Or.inl ⟨writeFailed, rfl, rfl⟩
    · rw [respond_savesLeft]
      exact Or.inr ⟨rfl, rfl⟩

theorem stored_save (r : Repository) (tx : Transaction) (cache : UnconfirmedCache) :
    (r.save tx cache).2.stored = r.stored ++ savedAmong [r.request tx cache] := by
  rw [savedAmong_singleton]
  rcases r.save_cases tx cache with ⟨e, hanswer, hafter⟩ | ⟨hanswer, hafter⟩
  · rw [hafter, SaveRequest.isSaved_of_error hanswer]
    exact (List.append_nil _).symm
  · rw [hafter, SaveRequest.isSaved_of_ok hanswer]
    simp only [decide_eq_true_eq]
    exact r.stored_respond tx

theorem scripts_save (r : Repository) (tx : Transaction) (cache : UnconfirmedCache) :
    (r.save tx cache).2.scripts = if (r.request tx cache).isAnswered then
      (takeScript tx.signature r.scripts).2 else r.scripts := by
  rcases r.save_cases tx cache with ⟨e, hanswer, hafter⟩ | ⟨hanswer, hafter⟩
  · rw [hafter, SaveRequest.isAnswered, hanswer]
    rfl
  · rw [hafter, SaveRequest.isAnswered, hanswer, if_pos rfl, ← scripts_respond]

/-- What is asked about one signature is nothing to another. -/
theorem answerFor_save_of_ne (h : tx.signature ≠ u.signature) (r : Repository)
    (cache : UnconfirmedCache) : (r.save u cache).2.answerFor tx = r.answerFor tx := by
  have hcontains : (r.save u cache).2.contains tx.signature = r.contains tx.signature := by
    rw [contains, stored_save, savedAmong_singleton, List.any_append]
    have hother : decide ((r.request u cache).transaction.signature = tx.signature) = false :=
      decide_eq_false (Ne.symm h)
    split
    · rw [List.any_cons, hother]
      exact Bool.or_false _
    · exact Bool.or_false _
  rw [answerFor_eq, answerFor_eq, hcontains]
  rcases r.save_cases u cache with ⟨e, -, hafter⟩ | ⟨-, hafter⟩
  · rw [hafter]
  · rw [hafter]
    show ((takeScript tx.signature (r.respond u).2.scripts).1).getD _ = _
    rw [scripts_respond, fst_takeScript_takeScript h]

/-! ## What it was asked -/

theorem requests_save (r : Repository) (tx : Transaction) (cache : UnconfirmedCache) :
    (r.save tx cache).2.requests = r.requests ++ [r.request tx cache] := rfl

theorem exists_requests_replay (r : Repository) (qs : List SaveRequest) :
    ∃ rs, (r.replay qs).requests = r.requests ++ rs := by
  induction qs generalizing r with
  | nil => exact ⟨[], (List.append_nil _).symm⟩
  | cons q qs ih =>
    obtain ⟨rs, hrs⟩ := ih (r.save q.transaction q.cache).2
    rw [requests_save, List.append_assoc] at hrs
    exact ⟨_, hrs⟩

theorem Logs.cons (h : r.Logs (q :: qs)) :
    r.request q.transaction q.cache = q ∧ (r.save q.transaction q.cache).2.Logs qs := by
  obtain ⟨rs, hrs⟩ := (r.save q.transaction q.cache).2.exists_requests_replay qs
  have hlog : ((r.save q.transaction q.cache).2.replay qs).requests = r.requests ++ q :: qs := h
  rw [requests_save, List.append_assoc] at hrs
  rw [hrs, List.append_cancel_left_eq, List.singleton_append, List.cons.injEq] at hlog
  obtain ⟨hhead, rfl⟩ := hlog
  refine ⟨hhead, ?_⟩
  rw [Logs, requests_save, List.append_assoc]
  exact hrs

theorem Logs.stored (h : r.Logs qs) : (r.replay qs).stored = r.stored ++ savedAmong qs := by
  induction qs generalizing r with
  | nil => exact (List.append_nil _).symm
  | cons q qs ih =>
    obtain ⟨hq, hqs⟩ := h.cons
    have hrest := ih hqs
    rw [stored_save, hq, List.append_assoc, ← savedAmong_append] at hrest
    exact hrest

/-- What a request found stored: the requests before it have added what they saved. -/
theorem Logs.stored_of_split {before after : List SaveRequest}
    (h : r.Logs (before ++ q :: after)) : q.stored = r.stored ++ savedAmong before := by
  induction before generalizing r with
  | nil =>
    have hrequest := congrArg SaveRequest.stored h.cons.1
    exact hrequest.symm.trans (List.append_nil _).symm
  | cons x before ih =>
    obtain ⟨hx, hrest⟩ := h.cons
    have hstored := ih hrest
    rw [stored_save, hx, List.append_assoc, ← savedAmong_append] at hstored
    exact hstored

/-- The answers that are left, each of these requests having taken its own. -/
def scriptsAfter (scripts : List (Signature × ImportResult)) (qs : List SaveRequest) :
    List (Signature × ImportResult) :=
  qs.foldl (fun scripts q =>
    if q.isAnswered then (takeScript q.transaction.signature scripts).2 else scripts) scripts

theorem Logs.scripts_replay (h : r.Logs qs) : (r.replay qs).scripts = scriptsAfter r.scripts qs := by
  induction qs generalizing r with
  | nil => rfl
  | cons q qs ih =>
    obtain ⟨hq, hqs⟩ := h.cons
    have hrest := ih hqs
    rw [scripts_save, hq] at hrest
    exact hrest

theorem scriptsAfter_perm {rs : List SaveRequest} (h : qs.Perm rs)
    (scripts : List (Signature × ImportResult)) :
    scriptsAfter scripts qs = scriptsAfter scripts rs := by
  apply h.foldl_eq'
  intro q _ r _ scripts
  cases q.isAnswered with
  | false => rfl
  | true =>
    cases r.isAnswered with
    | false => rfl
    | true => exact snd_takeScript_comm _ _ scripts

/-- Asked about each signature once, the repository answers as it would have at the start. -/
theorem Logs.eq_answerFor (h : r.Logs qs) (hnodup : (qs.map (·.transaction.signature)).Nodup)
    (hq : q ∈ qs) (hanswer : q.answer = .ok result) : result = r.answerFor q.transaction := by
  induction qs generalizing r with
  | nil => cases hq
  | cons x qs ih =>
    obtain ⟨hx, hqs⟩ := h.cons
    rw [List.map_cons, List.nodup_cons] at hnodup
    rcases List.mem_cons.mp hq with rfl | htail
    · rcases r.save_cases q.transaction q.cache with ⟨e, herror, -⟩ | ⟨hok, -⟩
      · rw [hx, hanswer] at herror
        cases herror
      · rw [hx, hanswer, Except.ok.injEq] at hok
        exact hok
    · have hne : q.transaction.signature ≠ x.transaction.signature :=
        fun hs => hnodup.1 (hs ▸ List.mem_map.mpr ⟨q, htail, rfl⟩)
      rw [ih hqs hnodup.2 htail, answerFor_save_of_ne hne]

end

end Repository
end ChainNode.Admission
