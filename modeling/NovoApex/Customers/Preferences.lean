import NovoApex.Lib.Attempts
import NovoApex.Lib.Crew
import NovoApex.Lib.Distinct
import NovoApex.Workers.ProfileBuilder

/-!
# A customer's preferences

However the preferences of a customer are spread over jobs, and however often a job fails
and is run again before the next one, the profile holds the first fifty of them: trimmed,
without the empty ones, and each in the spelling that came first.
-/

namespace NovoApex.Profiles
set_option autoImplicit false
open Lib Program

/-- The preferences a job detected, trimmed and without the empty ones. -/
def CRMSignalJob.detected (job : CRMSignalJob) : List String :=
  (job.crmSignals.detectedPreferences.map trimText).filter fun p => decide (p ≠ "")

/-- The first fifty of a list, each in the spelling that came first. -/
def firstSpellings (toLower : String → String) (detected : List String) : List String :=
  (distinctBy toLower detected).take crmMaxPreferences

/-- The preferences of a customer, as the profile holds them. -/
def preferencesOf (customerID : String) (w : ProfileWorld) : Option (List String) :=
  (w.profiles.find? customerID).map fun p => decodePreferences p.preferences

/-- What a job makes of the preferences that are there. -/
def merged (toLower : String → String) (job : CRMSignalJob) (existing : List String) : List String :=
  let newPrefs := newPreferences toLower (existing.map toLower) job.crmSignals.detectedPreferences
  if newPrefs = [] then existing else (existing ++ newPrefs).take crmMaxPreferences

section Merge

variable {toLower : String → String}

/-- The loop keeps of the new preferences the first spelling. -/
theorem newPreferences_eq (seen detected : List String) : newPreferences toLower seen detected =
    (distinctBy toLower ((detected.map trimText).filter fun p => decide (p ≠ ""))).filter fun p => decide (toLower p ∉ seen) := by
  induction detected generalizing seen with
  | nil => rfl
  | cons p rest ih =>
    simp only [newPreferences, List.map_cons]
    by_cases empty : trimText p = ""
    · rw [if_pos empty, ih, List.filter_cons_of_neg (by simp [empty])]
    · rw [if_neg empty, List.filter_cons_of_pos (by simp [empty])]
      simp only [distinctBy]
      by_cases taken : toLower (trimText p) ∈ seen
      · rw [if_pos taken, ih, List.filter_cons_of_neg (by simp [taken]), List.filter_filter]
        refine List.filter_congr fun q _ => ?_
        by_cases same : toLower q = toLower (trimText p)
        · simp [same, taken]
        · simp [same]
      · rw [if_neg taken, ih, List.filter_cons_of_pos (by simp [taken]), List.filter_filter]
        refine congrArg _ (List.filter_congr fun q _ => ?_)
        simp [and_comm]

/-- A job adds its preferences to those before it. -/
theorem merged_firstSpellings (job : CRMSignalJob) (before : List String) :
    merged toLower job (firstSpellings toLower before) = firstSpellings toLower (before ++ job.detected) := by
  have whole : (firstSpellings toLower before ++
      newPreferences toLower ((firstSpellings toLower before).map toLower) job.crmSignals.detectedPreferences).take crmMaxPreferences =
        firstSpellings toLower (before ++ job.detected) := by
    rw [newPreferences_eq]
    exact take_distinctBy_append
  unfold merged
  simp only
  split
  · rename_i nothing
    rw [nothing, List.append_nil] at whole
    rw [← whole]
    unfold firstSpellings
    rw [List.take_take, min_self]
  · exact whole

/-- A job that is run again finds its preferences there. -/
theorem firstSpellings_again (before detected : List String) :
    firstSpellings toLower ((before ++ detected) ++ detected) = firstSpellings toLower (before ++ detected) := by
  unfold firstSpellings
  rw [distinctBy_append (before ++ detected) detected]
  have nothing : (distinctBy toLower detected).filter (fun p => decide (toLower p ∉ (before ++ detected).map toLower)) = [] := by
    refine List.filter_eq_nil_iff.2 fun p mem new => of_decide_eq_true new ?_
    rw [List.map_append]
    exact List.mem_append_right _ (mem_map_distinctBy.1 (List.mem_map_of_mem mem))
  rw [nothing, List.append_nil]

end Merge

/-! ## One attempt -/

section Attempt

variable {toLower : String → String} {job : CRMSignalJob} {w : ProfileWorld} {prefs : List String}

/-- A write of another column. -/
theorem preferencesOf_updateProfile {texts : List String} {customerID : String} {f : CustomerProfile → CustomerProfile}
    {keeps : ∀ p, (f p).customerID = p.customerID} (same : ∀ p, (f p).preferences = p.preferences) :
    preferencesOf customerID (updateProfile texts customerID f keeps w).2 = preferencesOf customerID w := by
  unfold updateProfile
  split
  · unfold preferencesOf
    simp only
    rw [Table.find?_update_keyed, Option.map_map]
    refine congrArg (Option.map · _) (funext fun p => ?_)
    exact congrArg decodePreferences (same p)
  · rfl

/-- A write of the preferences, if it succeeds. -/
theorem preferencesOf_updatePreferences {customerID : String} {preferences old : List String} (there : preferencesOf customerID w = some old) :
    preferencesOf customerID (profileExec (.updateProfilePreferences preferences customerID) w).2 = some preferences ∨
      preferencesOf customerID (profileExec (.updateProfilePreferences preferences customerID) w).2 = some old ∧
        (profileExec (.updateProfilePreferences preferences customerID) w).1 = .error .untranslatable := by
  simp only [profileExec, updateProfile]
  split
  · left
    obtain ⟨profile, found, -⟩ := Option.map_eq_some_iff.1 there
    unfold preferencesOf
    simp only
    rw [Table.find?_update_keyed, found]
    have decoded : decodePreferences (.array (preferences.map .string)) = preferences := by
      show (preferences.map Json.string).map _ = preferences
      rw [List.map_map]
      exact List.map_id preferences
    exact congrArg some decoded
  · exact .inr ⟨there, rfl⟩

/-- The preferences are as they were or as the job makes them. -/
def Between (toLower : String → String) (job : CRMSignalJob) (prefs : List String) (w : ProfileWorld) : Prop :=
  preferencesOf job.customerID w = some prefs ∨ preferencesOf job.customerID w = some (merged toLower job prefs)

/-- The job has added its preferences. -/
def Added (toLower : String → String) (job : CRMSignalJob) (prefs : List String) (w : ProfileWorld) : Prop :=
  preferencesOf job.customerID w = some (merged toLower job prefs)

theorem always_accumulate {profile : CustomerProfile} (there : preferencesOf job.customerID w = some (decodePreferences profile.preferences)) :
    (accumulatePreferences toLower profile job).Always profileExec (Between toLower job (decodePreferences profile.preferences))
      (Replied (fun _ => Added toLower job (decodePreferences profile.preferences))
        (Between toLower job (decodePreferences profile.preferences))) w := by
  have start : Between toLower job (decodePreferences profile.preferences) w := .inl there
  unfold accumulatePreferences
  simp only
  split
  · rename_i nothing
    have same : merged toLower job (decodePreferences profile.preferences) = decodePreferences profile.preferences := if_pos nothing
    exact there.trans (congrArg some same.symm)
  · rename_i new
    have same : merged toLower job (decodePreferences profile.preferences) = _ := if_neg new
    have written := @preferencesOf_updatePreferences w job.customerID (merged toLower job (decodePreferences profile.preferences)) _ there
    rw [← same]
    have write : (call (I := profileStore) (.updateProfilePreferences (merged toLower job (decodePreferences profile.preferences)) job.customerID)).Always
        profileExec (Between toLower job (decodePreferences profile.preferences))
        (Replied (fun _ => Added toLower job (decodePreferences profile.preferences))
          (Between toLower job (decodePreferences profile.preferences))) w := by
      refine Always.call start ?_ ?_ start
      · rcases written with done | ⟨left, failed⟩
        · cases reply : (profileExec (.updateProfilePreferences (merged toLower job (decodePreferences profile.preferences)) job.customerID) w).1 with
          | ok n => exact done
          | error e => exact .inr done
        · rw [failed]
          exact .inl left
      · rcases written with done | ⟨left, -⟩
        · exact .inr done
        · exact .inl left
    refine Always.bind (write.mono fun r t after => ?_)
    cases r with
    | ok _ => exact after
    | error e => exact after

/-- The statements after the preferences leave them alone. -/
def LeavesPreferences (customerID : String) : ProfileStmt → Prop
  | .updateProfileDeliveryArea _ customerID' => customerID' = customerID
  | .updateProfileSentiment _ customerID' => customerID' = customerID
  | _ => False

theorem always_leaves {α : Type} {customerID : String} {p : ProfileHandler α} (uses : p.Uses (LeavesPreferences customerID))
    (there : preferencesOf customerID w = some prefs) : p.Always profileExec (fun t => preferencesOf customerID t = some prefs)
      (fun _ t => preferencesOf customerID t = some prefs) w := by
  induction p generalizing w with
  | ret r => exact there
  | stmt op next ih =>
    have after : preferencesOf customerID (profileExec op w).2 = some prefs := by
      rw [← there]
      cases op with
      | getCustomerProfileByCustomerID id => exact uses.1.elim
      | createCustomerProfileIfMissing id id' => exact uses.1.elim
      | updateProfilePreferences texts id => exact uses.1.elim
      | updateProfileDeliveryArea area id =>
        obtain rfl : id = customerID := uses.1
        exact preferencesOf_updateProfile fun _ => rfl
      | updateProfileSentiment sentiment id =>
        obtain rfl : id = customerID := uses.1
        exact preferencesOf_updateProfile fun _ => rfl
    exact ⟨there, ih _ (uses.2 _) after, ih _ (uses.2 _) after, ih _ (uses.2 _) there⟩

theorem uses_updateDeliveryArea (job : CRMSignalJob) : (updateDeliveryArea job).Uses (LeavesPreferences job.customerID) := by
  unfold updateDeliveryArea
  split
  · split
    · exact Uses.ignore (uses_call.2 rfl)
    · trivial
  · trivial

theorem uses_updateSentiment (profile : CustomerProfile) (job : CRMSignalJob) :
    (updateSentiment profile job).Uses (LeavesPreferences job.customerID) := by
  unfold updateSentiment
  split
  · split
    · exact Uses.ignore (uses_call.2 rfl)
    · trivial
  · trivial

/-- An attempt at a job: its preferences are added or not, and they are once it returned nil. -/
theorem always_profileBuilder (newID : String) (there : preferencesOf job.customerID w = some prefs) :
    (crmHandleProfileBuilder toLower newID job).Always profileExec (Between toLower job prefs)
      (Replied (fun _ => Added toLower job prefs) (Between toLower job prefs)) w := by
  obtain ⟨profile, found, rfl⟩ := Option.map_eq_some_iff.1 there
  have start : Between toLower job (decodePreferences profile.preferences) w := .inl there
  have read : (call (I := profileStore) (.getCustomerProfileByCustomerID job.customerID)).Always profileExec
      (Between toLower job (decodePreferences profile.preferences))
      (Replied (fun reply t => reply = some profile ∧ preferencesOf job.customerID t = some (decodePreferences profile.preferences))
        (Between toLower job (decodePreferences profile.preferences))) w := by
    refine @Always.call profileStore _ profileExec _ (.getCustomerProfileByCustomerID job.customerID) _ w start ?_ start start
    exact ⟨found, there⟩
  unfold crmHandleProfileBuilder
  refine Always.bind (read.mono fun r t after => ?_)
  cases r with
  | error e => exact after
  | ok reply =>
    obtain ⟨rfl, there⟩ := after
    refine Always.bind ((always_accumulate there).mono fun r u after => ?_)
    cases r with
    | error e => exact after
    | ok _ =>
      have leaves := always_leaves (Uses.bind (uses_updateDeliveryArea job) fun _ => uses_updateSentiment profile job) after
      refine (leaves.stops fun t same => .inr same).mono fun r t same => ?_
      cases r with
      | ok _ => exact same
      | error e => exact .inr same

end Attempt

/-! ## Jobs -/

/-- Attempts at one job, and whether one of them returned nil. -/
inductive Attempts (toLower : String → String) (job : CRMSignalJob) (u : ProfileWorld) : Bool → ProfileWorld → Prop where
  | start : Attempts toLower job u false u
  | next {done v r w} (before : Attempts toLower job u done v) (newID)
      (tries : (crmHandleProfileBuilder toLower newID job).Tries profileExec v r w) : Attempts toLower job u (done || decide (r = some (.ok ()))) w

/-- Jobs that are processed one after another: any number of attempts at each, one of which at least returns nil. -/
inductive Processed (toLower : String → String) (u : ProfileWorld) : List CRMSignalJob → ProfileWorld → Prop where
  | start : Processed toLower u [] u
  | job {jobs job v w} (before : Processed toLower u jobs v) (attempts : Attempts toLower job v true w) : Processed toLower u (jobs ++ [job]) w

section Jobs

variable {toLower : String → String} {customerID : String} {u v w : ProfileWorld} {before : List String}

/-- An attempt at a job, whatever came before it in the same job. -/
theorem preferencesOf_tries {job : CRMSignalJob} {newID : String} {r : Option (Except ProfileErr Unit)}
    (there : preferencesOf job.customerID v = some (firstSpellings toLower before))
    (tries : (crmHandleProfileBuilder toLower newID job).Tries profileExec v r w) :
    preferencesOf job.customerID w = some (firstSpellings toLower (before ++ job.detected)) ∨
      preferencesOf job.customerID w = some (firstSpellings toLower before) ∧ r ≠ some (.ok ()) := by
  have after := (always_profileBuilder newID there).tries tries
  have either : Between toLower job (firstSpellings toLower before) w →
      preferencesOf job.customerID w = some (firstSpellings toLower before) ∨
        preferencesOf job.customerID w = some (firstSpellings toLower (before ++ job.detected)) := by
    unfold Between
    rw [merged_firstSpellings]
    exact id
  rcases r with _ | e | _
  · exact (either after).symm.imp_right fun same => ⟨same, fun absurd => nomatch absurd⟩
  · exact (either after).symm.imp_right fun same => ⟨same, fun absurd => nomatch absurd⟩
  · left
    rw [← merged_firstSpellings]
    exact after

/-- The attempts at one job. -/
theorem Attempts.preferences {job : CRMSignalJob} {done : Bool} (there : preferencesOf job.customerID u = some (firstSpellings toLower before))
    (attempts : Attempts toLower job u done w) :
    preferencesOf job.customerID w = some (firstSpellings toLower (before ++ job.detected)) ∨
      preferencesOf job.customerID w = some (firstSpellings toLower before) ∧ done = false := by
  induction attempts with
  | start => exact .inr ⟨there, rfl⟩
  | @next done v r w _ newID tries ih =>
    rcases ih with added | ⟨left, none⟩
    · left
      rcases preferencesOf_tries added tries with again | ⟨same, -⟩
      · rw [again, firstSpellings_again]
      · exact same
    · rcases preferencesOf_tries left tries with added | ⟨same, failed⟩
      · exact .inl added
      · exact .inr ⟨same, by rw [none, decide_eq_false failed]; rfl⟩

/-- The jobs of a customer. -/
theorem Processed.preferences {jobs : List CRMSignalJob} (own : ∀ job ∈ jobs, job.customerID = customerID)
    (there : preferencesOf customerID u = some (firstSpellings toLower before)) (processed : Processed toLower u jobs w) :
    preferencesOf customerID w = some (firstSpellings toLower (before ++ jobs.flatMap CRMSignalJob.detected)) := by
  induction processed with
  | start => rwa [List.flatMap_nil, List.append_nil]
  | @job jobs job v w _ attempts ih =>
    have earlier := ih fun job mem => own job (List.mem_append_left _ mem)
    obtain rfl := own job (List.mem_append_right _ (List.mem_singleton_self job))
    rcases attempts.preferences earlier with added | ⟨-, none⟩
    · rw [List.flatMap_append, List.flatMap_singleton, ← List.append_assoc]
      exact added
    · cases none

/-- Jobs of one customer, starting from a profile without preferences: it holds the first spellings of everything they detected, however
that is split into jobs. They are at most fifty, no two of them equal up to case, and those that were there after some of the jobs are
there after the others, in front. -/
theorem preferences_accumulate {first rest : List CRMSignalJob} (own : ∀ job ∈ first ++ rest, job.customerID = customerID)
    (empty : preferencesOf customerID u = some []) (processed : Processed toLower u first v) (later : Processed toLower v rest w) :
    preferencesOf customerID v = some (firstSpellings toLower (first.flatMap CRMSignalJob.detected)) ∧
    ∃ prefs, preferencesOf customerID w = some prefs ∧
      prefs = firstSpellings toLower ((first ++ rest).flatMap CRMSignalJob.detected) ∧
      prefs.length ≤ 50 ∧ (prefs.map toLower).Nodup ∧ firstSpellings toLower (first.flatMap CRMSignalJob.detected) <+: prefs := by
  have start : preferencesOf customerID u = some (firstSpellings toLower []) := empty
  have between := processed.preferences (fun job mem => own job (List.mem_append_left _ mem)) start
  have final := later.preferences (fun job mem => own job (List.mem_append_right _ mem)) between
  rw [List.nil_append] at between final
  refine ⟨between, _, final, ?_, ?_, ?_, take_distinctBy_prefix _ _⟩
  · rw [List.flatMap_append]
  · exact List.length_take_le ..
  · unfold firstSpellings
    rw [List.map_take]
    exact (nodup_distinctBy _).sublist (List.take_sublist ..)

end Jobs

/-! ## A customer -/

/-- `strings.ToLower` of an ASCII text. -/
def asciiToLower (s : String) : String := String.ofList (s.toList.map Char.toLower)

/-- A customer with a new profile. -/
def newCustomer : ProfileWorld := ⟨⟨[⟨"p1", "c1", .array [], none, none⟩], List.nodup_singleton _⟩, ["c1"]⟩

/-- A job that detects spicy food. -/
def spicy : CRMSignalJob := ⟨"c1", ⟨[" Spicy ", ""], none, some "positive"⟩⟩

/-- One that detects it again. -/
def spicyAgain : CRMSignalJob := ⟨"c1", ⟨["spicy", "no onions"], none, none⟩⟩

/-- What a job leaves that nothing disturbs. -/
def processOne (job : CRMSignalJob) (w : ProfileWorld) : Except ProfileErr Unit × ProfileWorld :=
  (crmHandleProfileBuilder asciiToLower "p2" job).run profileExec w

theorem processed_one {job : CRMSignalJob} {w : ProfileWorld} (returns : (processOne job w).1 = .ok ()) :
    Processed asciiToLower w [job] (processOne job w).2 := by
  have tries := Tries.run profileExec (crmHandleProfileBuilder asciiToLower "p2" job) w
  have attempts : Attempts asciiToLower job w true (processOne job w).2 := by
    have next := Attempts.next .start "p2" tries
    have nil : ((crmHandleProfileBuilder asciiToLower "p2" job).run profileExec w).1 = .ok () := returns
    rw [nil] at next
    exact next
  exact .job .start attempts

/-- The second mention changes nothing. -/
theorem spicy_twice : ∃ v w, Processed asciiToLower newCustomer [spicy] v ∧ Processed asciiToLower v [spicyAgain] w ∧
    preferencesOf "c1" w = some ["Spicy", "no onions"] := by
  have first : Processed asciiToLower newCustomer [spicy] (processOne spicy newCustomer).2 := processed_one (by decide +kernel)
  have second : Processed asciiToLower (processOne spicy newCustomer).2 [spicyAgain] (processOne spicyAgain (processOne spicy newCustomer).2).2 :=
    processed_one (by decide +kernel)
  have own : ∀ job ∈ [spicy] ++ [spicyAgain], job.customerID = "c1" := by
    intro job mem
    simp only [List.cons_append, List.nil_append, List.mem_cons, List.not_mem_nil, or_false] at mem
    rcases mem with rfl | rfl <;> rfl
  obtain ⟨-, prefs, final, whole, -⟩ := preferences_accumulate own (by decide +kernel) first second
  have spelled : firstSpellings asciiToLower (([spicy] ++ [spicyAgain]).flatMap CRMSignalJob.detected) = ["Spicy", "no onions"] := by
    decide +kernel
  exact ⟨_, _, first, second, final.trans (congrArg some (whole.trans spelled))⟩

end NovoApex.Profiles
