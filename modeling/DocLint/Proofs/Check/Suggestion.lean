import DocLint.Proofs.Check.Completion
import DocLint.Proofs.Text.Words
import DocLint.Resources.Builtin

/-!
Suggested verbs. Words are grouped by a key, whatever it is: each stands among the words of its own key, and
no other does. The form that a group suggests for a word is therefore fine when it is judged itself, and a
docstring that is opened with it is not found fault with.
-/

set_option autoImplicit false

namespace DocLint

namespace Mood

open Text

variable {key : Text → Text} {groups : List (Text × List Text)} {words forms : List Text} {k w word f : Text}
  {forms? : Text → Option (List Text)}

/-! ### Words by their keys -/

def Listed (groups : List (Text × List Text)) (k w : Text) : Prop := ∃ forms, groups.lookup k = some forms ∧ w ∈ forms

theorem lookup_cons_ne {t : Text} {ws : List Text} (h : k ≠ t) : ((t, ws) :: groups).lookup k = groups.lookup k := by
  rw [List.lookup_cons,beq_eq_false_iff_ne.mpr h]

theorem listed_insertBy : Listed (insertBy key groups word) k w ↔ Listed groups k w ∨ w = word ∧ key word = k := by
  unfold Listed
  induction groups with
  | nil =>
    rw [insertBy]
    by_cases hk : k = key word
    · simp [hk]
    · simp [lookup_cons_ne hk,Ne.symm hk]
  | cons g groups ih =>
    obtain ⟨t,ws⟩ := g
    rw [insertBy]
    by_cases ht : t = key word
    · subst ht
      rw [if_pos rfl]
      by_cases hk : k = key word
      · subst hk
        by_cases hw : word ∈ ws
        · have hagain : w = word → w ∈ ws := fun h => h ▸ hw
          simpa [hw] using hagain
        · simp [hw]
      · simp [lookup_cons_ne hk,Ne.symm hk]
    · rw [if_neg ht]
      by_cases hk : k = t
      · subst hk
        simp [Ne.symm ht]
      · rw [lookup_cons_ne hk,lookup_cons_ne hk]
        exact ih

theorem listed_foldl_insertBy (words : List Text) (groups : List (Text × List Text)) :
    Listed (words.foldl (insertBy key) groups) k w ↔ Listed groups k w ∨ w ∈ words ∧ key w = k := by
  induction words generalizing groups with
  | nil => simp
  | cons word words ih =>
    rw [List.foldl_cons,ih,listed_insertBy,or_assoc,List.mem_cons,or_and_right]
    refine or_congr_right (or_congr_left ⟨?_,?_⟩)
    · rintro ⟨rfl,hk⟩
      exact ⟨rfl,hk⟩
    · rintro ⟨rfl,hk⟩
      exact ⟨rfl,hk⟩

theorem listed_groupBy : Listed (groupBy key words) k w ↔ w ∈ words ∧ key w = k := by
  rw [groupBy,listed_foldl_insertBy]
  simp [Listed]

example : groupBy (fun w => w.take 1) (Text.literals ["take", "give", "tell", "take"]) =
    [("t".toList, Text.literals ["take", "tell"]), ("g".toList, Text.literals ["give"])] := by
  decide +kernel

/-! ### Judging a suggested form -/

/-- The closest form is one of the forms, and none shares a longer beginning. -/
theorem closest_spec (h : closest word forms = some f) : f ∈ forms ∧
    ∀ g ∈ forms, commonPrefixLength word g ≤ commonPrefixLength word f := by
  cases forms with
  | nil => cases h
  | cons g gs =>
    cases h
    induction gs generalizing g with
    | nil => simp
    | cons x xs ih =>
      rw [List.foldl_cons]
      simp only [List.forall_mem_cons] at ih ⊢
      split
      · rename_i hx
        obtain ⟨hmem,hfirst,hrest⟩ := ih x
        exact ⟨List.mem_cons_of_mem g hmem,by omega,hfirst,hrest⟩
      · rename_i hx
        obtain ⟨hmem,hfirst,hrest⟩ := ih g
        refine ⟨?_,hfirst,by omega,hrest⟩
        rcases List.mem_cons.mp hmem with h | h
        · rw [h]
          exact List.mem_cons_self
        · exact List.mem_cons_of_mem g (List.mem_cons_of_mem x h)

theorem judgeBy_instead (h : judgeBy forms? word = .instead f) :
    ∃ forms, forms? word = some forms ∧ closest word forms = some f := by
  unfold judgeBy at h
  split at h
  · cases h
  · split at h
    · cases h
    · rename_i forms hforms
      split at h
      · cases h
      · split at h
        · rename_i hclosest
          cases h
          exact ⟨forms,hforms,hclosest⟩
        · cases h

theorem judgeBy_of_mem (hn : w ∉ nonImperatives) (hforms : forms? w = some forms) (hw : w ∈ forms) :
    judgeBy forms? w = .fine := by
  unfold judgeBy
  simp [hn,hforms,hw]

theorem judgeBy_of_closest (hn : w ∉ nonImperatives) (hforms : forms? w = some forms) (hw : w ∉ forms)
    (hf : closest w forms = some f) : judgeBy forms? w = .instead f := by
  unfold judgeBy
  simp [hn,hforms,hw,hf]

theorem judgeBy_suggested (hwords : ∀ w ∈ words, w ∉ nonImperatives)
    (h : judgeBy (fun w => (groupBy key words).lookup (key w)) word = .instead f) :
    f ∈ words ∧ judgeBy (fun w => (groupBy key words).lookup (key w)) f = .fine := by
  obtain ⟨forms,hforms,hclosest⟩ := judgeBy_instead h
  have hf := (closest_spec hclosest).1
  obtain ⟨hmem,hkey⟩ := listed_groupBy.mp ⟨forms,hforms,hf⟩
  exact ⟨hmem,judgeBy_of_mem (hwords f hmem) (hkey ▸ hforms) hf⟩

/-! ### The lists of words -/

theorem all_words_ofList {a : List Char} {p : Text → Bool} {b : Bool} (h : (Text.words a).all p = b) :
    (Text.words (String.ofList a).toList).all p = b := by
  rwa [String.toList_ofList]

theorem all_apart_ofList {a b : List Char}
    (h : (Text.words a).all (fun w => isLowerWord w && !(Text.words b).contains w) = true) :
    (Text.words (String.ofList a).toList).all
      (fun w => isLowerWord w && !(Text.words (String.ofList b).toList).contains w) = true := by
  rwa [String.toList_ofList,String.toList_ofList]

set_option maxRecDepth 50000 in
theorem imperatives_apart : imperatives.all (fun w => isLowerWord w && !nonImperatives.contains w) = true := by
  unfold imperatives nonImperatives
  refine all_apart_ofList ?_
  decide +kernel

theorem imperative_lower (h : w ∈ imperatives) : isLowerWord w = true ∧ w ∉ nonImperatives := by
  have hw := List.all_eq_true.mp imperatives_apart w h
  simpa using hw

theorem formsOf_eq [Resources] : formsOf? = fun w => (groupBy Resources.stem imperatives).lookup (Resources.stem w) := by
  funext w
  rw [formsOf?,verbs,groupByStem]

theorem judge_of_nearest [Resources] (hf : f ∈ imperatives) (hstem : Resources.stem f = Resources.stem w) (hn : w ∉ nonImperatives)
    (hw : w ∉ imperatives) (hnear : ∀ g ∈ imperatives, g = f ∨ commonPrefixLength w g < commonPrefixLength w f) :
    judge w = .instead f := by
  obtain ⟨forms,hforms,hmem⟩ := listed_groupBy.mpr ⟨hf,hstem⟩
  have hlisted : ∀ g ∈ forms, g ∈ imperatives := fun g hg => (listed_groupBy.mp ⟨forms,hforms,hg⟩).1
  rw [judge,formsOf_eq]
  cases hclosest : closest w forms with
  | none =>
    cases forms with
    | nil => cases hmem
    | cons => cases hclosest
  | some g =>
    obtain ⟨hg,hbest⟩ := closest_spec hclosest
    obtain rfl : g = f := (hnear g (hlisted g hg)).resolve_right (Nat.not_lt.mpr (hbest f hmem))
    exact judgeBy_of_closest hn hforms (fun h => hw (hlisted w h)) hclosest

end Mood

namespace Check

open Text Mood

variable {o o' : CheckOptions} {s s' : Subject} {d d' : Docstring} {t w : Text} {suggested word : Text}
  {finding : Finding}

/-! ### What a docstring opens with -/

theorem Wording.firstWord_of_words [Resources] {ws : List Text} (hv : d.value = .ok (.text t)) (hw : t.words = w :: ws) :
    Wording.firstWord? d = .ok (some w) := by
  have hstrip : t.strip.words = w :: ws := (words_strip t).trans hw
  have hfull : t.strip.isEmpty = false := by
    cases h : t.strip with
    | nil =>
      rw [h] at hstrip
      cases hstrip
    | cons => rfl
  rw [Wording.firstWord?,hv]
  simp [bind,Except.bind,hfull,hstrip,pure,Except.pure]

theorem Wording.words_of_firstWord [Resources] (h : Wording.firstWord? d = .ok (some w)) :
    ∃ t ws, d.value = .ok (.text t) ∧ t.words = w :: ws := by
  unfold Wording.firstWord? at h
  cases hv : d.value with
  | error e =>
    rw [hv] at h
    cases h
  | ok v =>
    rw [hv] at h
    cases v with
    | bytes b =>
      dsimp only [bind,Except.bind] at h
      split at h <;> cases h
    | text t =>
      dsimp only [bind,Except.bind] at h
      split at h
      · cases h
      · split at h
        · rename_i hwords
          cases h
          exact ⟨t,_,rfl,(words_strip t).symm.trans hwords⟩
        · cases h

theorem Wording.judgedWord_of_words [Resources] {ws : List Text} (f : Text → List Finding) (hv : d.value = .ok (.text t))
    (hw : t.words = w :: ws) : Wording.judgedWord f d = .ok (f (Wording.alphanumeric w)) := by
  rw [Wording.judgedWord,Wording.firstWord_of_words hv hw]
  rfl

theorem Wording.exists_of_judgedWord [Resources] {f : Text → List Finding} {findings : List Finding}
    (h : Wording.judgedWord f d = .ok findings) (hne : findings ≠ []) : ∃ t first rest,
    d.value = .ok (.text t) ∧ t.words = first :: rest ∧ findings = f (Wording.alphanumeric first) := by
  unfold Wording.judgedWord at h
  cases hfirst : Wording.firstWord? d with
  | error e =>
    rw [hfirst] at h
    cases h
  | ok first =>
    rw [hfirst] at h
    cases h
    cases first with
    | none => exact absurd rfl hne
    | some first =>
      obtain ⟨t,rest,hv,hwords⟩ := Wording.words_of_firstWord hfirst
      exact ⟨t,first,rest,hv,hwords,rfl⟩

theorem alphanumeric_of_letters (h : ∀ c ∈ w, isAsciiLetter c = true) : Wording.alphanumeric w = w := by
  refine List.filter_eq_self.mpr fun c hc => ?_
  simp [isAlnum,isAscii_of_letter (h c hc),h c hc]

theorem mood_of_mem [Resources] (h : finding ∈ (Check.imperativeMood.run o s).findings) : ∃ d t first rest,
    s.docstring = some d ∧ d.value = .ok (.text t) ∧ t.words = first :: rest ∧
      finding ∈ Wording.mood (Wording.alphanumeric first) := by
  cases hd : s.docstring with
  | none =>
    simp [Check.run,hd] at h
  | some d =>
    rw [Check.run_of_documented hd (by decide),Check.inspect,Check.ofDefinition] at h
    split at h
    · unfold Wording.imperativeMood at h
      split at h
      · cases h
      · cases hjudged : Wording.judgedWord Wording.mood d with
        | error e =>
          rw [hjudged] at h
          cases h
        | ok findings =>
          rw [hjudged] at h
          obtain ⟨t,first,rest,hv,hwords,hfindings⟩ := Wording.exists_of_judgedWord hjudged (List.ne_nil_of_mem h)
          exact ⟨d,t,first,rest,rfl,hv,hwords,hfindings ▸ h⟩
    · cases h

theorem run_of_words [Resources] {ws : List Text} {f : Definition} (hd : s.docstring = some d) (hv : d.value = .ok (.text t))
    (hw : t.words = w :: ws) (hf : s.definition? = some f) (hplain : (f.isTest || f.isProperty o.properties) = false) :
    Check.imperativeMood.run o s = .ofList (Wording.mood (Wording.alphanumeric w)) := by
  rw [Check.run_of_documented hd (by decide),Check.inspect,Check.ofDefinition]
  simp only [hf]
  rw [Wording.imperativeMood,hplain,Wording.judgedWord_of_words Wording.mood hv hw]
  rfl

theorem run_of_mood_fine [Resources] {ws : List Text} (hd : s.docstring = some d) (hv : d.value = .ok (.text t)) (hw : t.words = w :: ws)
    (h : Wording.mood (Wording.alphanumeric w) = []) : Check.imperativeMood.run o s = {} := by
  rw [Check.run_of_documented hd (by decide),Check.inspect,Check.ofDefinition]
  split
  · rw [Wording.imperativeMood,Wording.judgedWord_of_words Wording.mood hv hw,h]
    split <;> rfl
  · rfl

theorem Wording.mem_ofMood {verdict : Mood.Verdict} (h : Rule.D401.with [suggested, word] ∈ Wording.ofMood w verdict) :
    ∃ form, verdict = .instead form ∧ suggested = form.capitalize ∧ word = w := by
  cases verdict with
  | fine => cases h
  | unfit => simp [Wording.ofMood,Rule.with] at h
  | instead form =>
    have hpair : suggested = form.capitalize ∧ word = w := by simpa [Wording.ofMood,Rule.with] using h
    exact ⟨form,rfl,hpair⟩

theorem mood_of_suggested [Resources] (h : Rule.D401.with [suggested, word] ∈ Wording.mood w) : suggested ≠ [] ∧
    (∀ c ∈ suggested, isAsciiLetter c = true) ∧ Wording.mood suggested = [] := by
  obtain ⟨form,hjudge,rfl,-⟩ := Wording.mem_ofMood h
  rw [Mood.judge,formsOf_eq] at hjudge
  obtain ⟨hmem,hfine⟩ := judgeBy_suggested (fun w hw => (imperative_lower hw).2) hjudge
  obtain ⟨hne,hletters,hlower⟩ := capitalize_of_lowerWord (imperative_lower hmem).1
  refine ⟨hne,hletters,?_⟩
  rw [Wording.mood,hlower,Mood.judge,formsOf_eq,hfine]
  rfl

/-- Words are grouped by their stems, for every list of words and whatever the stems are. A form that is
suggested in place of a first word is fine then, and a docstring that opens with it is not found fault with. -/
theorem suggestion_followed [Resources] :
    (∀ (key : Text → Text) words k w, Listed (groupBy key words) k w ↔ w ∈ words ∧ key w = k) ∧
    (∀ (key : Text → Text) words word f, (∀ w ∈ words, w ∉ nonImperatives) →
      judgeBy (fun w => (groupBy key words).lookup (key w)) word = .instead f →
      f ∈ words ∧ judgeBy (fun w => (groupBy key words).lookup (key w)) f = .fine) ∧
    (∀ w ∈ imperatives, isLowerWord w = true ∧ w ∉ nonImperatives) ∧
    ∀ o s suggested word, Rule.D401.with [suggested, word] ∈ (Check.imperativeMood.run o s).findings →
      ∃ d t first rest, s.docstring = some d ∧ d.value = .ok (.text t) ∧ t.words = first :: rest ∧
        (t.withFirstWord suggested).words = suggested :: rest ∧
        ∀ o' s' d', s'.docstring = some d' → d'.value = .ok (.text (t.withFirstWord suggested)) →
          Check.imperativeMood.run o' s' = {} := by
  refine ⟨fun key words k w => listed_groupBy,fun key words word f hwords h => judgeBy_suggested hwords h,
    fun w hw => imperative_lower hw,fun o s suggested word h => ?_⟩
  obtain ⟨d,t,first,rest,hd,hv,hfirst,hmood⟩ := mood_of_mem h
  obtain ⟨hne,hletters,hfine⟩ := mood_of_suggested hmood
  have hwords : (t.withFirstWord suggested).words = suggested :: rest := by
    rw [words_withFirstWord hne fun c hc => isSpace_of_letter (hletters c hc),hfirst,List.tail_cons]
  refine ⟨d,t,first,rest,hd,hv,hfirst,hwords,fun o' s' d' hd' hv' => run_of_mood_fine hd' hv' hwords ?_⟩
  rw [alphanumeric_of_letters hletters,hfine]

def describing : Text := "def f():\n    \"\"\"Returns it.\"\"\"\n"
def commanding : Text := "def f():\n    \"\"\"Return it.\"\"\"\n"

open Resources.Builtin

set_option maxRecDepth 50000 in
theorem suggestion_followed_returns : ∃ m s m' s', Module.ofText "a.py" describing = .ok m ∧ s ∈ m.subjects ∧
    Rule.D401.with ["Return".toList, "Returns".toList] ∈ (Check.imperativeMood.run {} s).findings ∧
    Module.ofText "a.py" commanding = .ok m' ∧ s' ∈ m'.subjects ∧ s'.docstring.isSome = true ∧
    Check.imperativeMood.run {} s' = {} := by
  have hrun : ((Module.ofText "a.py" describing).toOption.any fun m => m.subjects.any fun s =>
      s.docstring == some ⟨"\"\"\"Returns it.\"\"\"", 2, 2⟩ &&
        s.definition?.any fun f => !(f.isTest || f.isProperty [])) = true := by
    decide +kernel
  have hrun' : ((Module.ofText "a.py" commanding).toOption.any fun m => m.subjects.any fun s =>
      s.docstring == some ⟨"\"\"\"Return it.\"\"\"", 2, 2⟩) = true := by
    decide +kernel
  have hlisted : imperatives.all (fun w => w != "return".toList) = false := by
    unfold imperatives
    refine all_words_ofList ?_
    decide +kernel
  have hnear : imperatives.all (fun w => w == "return".toList || commonPrefixLength "returns".toList w < 6) = true := by
    unfold imperatives
    refine all_words_ofList ?_
    decide +kernel
  have hfit : nonImperatives.all (fun w => w != "returns".toList) = true := by
    unfold nonImperatives
    refine all_words_ofList ?_
    decide +kernel
  have hjudge : judge "returns".toList = .instead "return".toList := by
    refine judge_of_nearest ?_ (by decide +kernel) ?_ ?_ ?_
    · obtain ⟨w,hw,h⟩ := List.all_eq_false.mp hlisted
      rw [bne_iff_ne,ne_eq,Decidable.not_not] at h
      exact h ▸ hw
    · exact fun h => bne_iff_ne.mp (List.all_eq_true.mp hfit _ h) rfl
    · exact fun h => absurd (List.all_eq_true.mp hnear _ h) (by decide)
    · intro w hw
      have h := List.all_eq_true.mp hnear w hw
      rwa [Bool.or_eq_true,beq_iff_eq,decide_eq_true_eq] at h
  obtain ⟨m,s,hm,hs,htest⟩ := Module.exists_subject hrun
  obtain ⟨m',s',hm',hs',hd'⟩ := Module.exists_subject hrun'
  rw [Bool.and_eq_true,beq_iff_eq] at htest
  rw [beq_iff_eq] at hd'
  obtain ⟨f,hf,hplain⟩ := (Option.any_eq_true _ _).mp htest.2
  have hv : Docstring.value ⟨"\"\"\"Returns it.\"\"\"", 2, 2⟩ = .ok (.text "Returns it.") := rfl
  have hwords : Text.words "Returns it.".toList = ["Returns".toList, "it.".toList] := by decide +kernel
  have hmood : Wording.mood (Wording.alphanumeric "Returns".toList) =
      [Rule.D401.with ["Return".toList, "Returns".toList]] := by
    have hword : Wording.alphanumeric "Returns".toList = "Returns".toList := by decide +kernel
    have hlower : Text.lower "Returns".toList = "returns".toList := by decide +kernel
    have hcapital : Text.capitalize "return".toList = "Return".toList := by decide +kernel
    rw [hword,Wording.mood,hlower,hjudge,Wording.ofMood,hcapital]
  have hfound : Rule.D401.with ["Return".toList, "Returns".toList] ∈ (Check.imperativeMood.run {} s).findings := by
    rw [run_of_words htest.1 hv hwords hf (by simpa using hplain),hmood]
    exact List.mem_singleton_self _
  obtain ⟨d,t,-,-,hd,ht,-,-,hfollow⟩ := suggestion_followed.2.2.2 {} s _ _ hfound
  obtain rfl : _ = d := Option.some.inj (htest.1.symm.trans hd)
  rw [hv] at ht
  cases ht
  exact ⟨m,s,m',s',hm,hs,hfound,hm',hs',by rw [hd']; rfl,hfollow {} s' _ hd' rfl⟩

end Check

end DocLint
