import Mathlib.Data.List.Nodup
import DocLint.Proofs.Check.Suggestion
import DocLint.Resources.Builtin

/-!
Suggested verbs and the order of their forms. The form with the longest common beginning is suggested; where
several share it, the first one in the order of the forms. Only two verbs have one stem, so that the order matters
for the words of this stem that go along with both verbs equally far, and for no others.
-/

set_option autoImplicit false

namespace DocLint

namespace Mood

open Text

variable {word f g : Text} {forms : List Text}

/-! ### The closest form in some order -/

theorem exists_closest (word : Text) (hne : forms ≠ []) : ∃ f, closest word forms = some f := by
  cases forms with
  | nil => exact absurd rfl hne
  | cons f forms => exact ⟨_,rfl⟩

theorem closest_cons (h : ∀ g ∈ forms, commonPrefixLength word g ≤ commonPrefixLength word f) :
    closest word (f :: forms) = some f := by
  rw [closest]
  refine congrArg some ?_
  induction forms with
  | nil => rfl
  | cons g forms ih =>
    obtain ⟨hg,hforms⟩ := List.forall_mem_cons.mp h
    rw [List.foldl_cons,if_neg (Nat.not_lt.mpr hg)]
    exact ih hforms

def Nearest (word : Text) (forms : List Text) (f : Text) : Prop :=
  f ∈ forms ∧ ∀ g ∈ forms, g = f ∨ commonPrefixLength word g < commonPrefixLength word f

theorem closest_of_nearest (h : Nearest word forms f) {order : List Text} (horder : order.Perm forms) :
    closest word order = some f := by
  have hmem : f ∈ order := horder.mem_iff.mpr h.1
  obtain ⟨x,hx⟩ := exists_closest word (List.ne_nil_of_mem hmem)
  obtain ⟨hxmem,hbest⟩ := closest_spec hx
  rcases h.2 x (horder.mem_iff.mp hxmem) with rfl | hlt
  · exact hx
  · exact absurd (hbest f hmem) (Nat.not_le.mpr hlt)

theorem closest_order_iff (hne : forms ≠ []) :
    (∀ a b : List Text, a.Perm forms → b.Perm forms → closest word a = closest word b) ↔
      ∃ f, Nearest word forms f := by
  constructor
  · intro h
    obtain ⟨f,hf⟩ := exists_closest word hne
    obtain ⟨hmem,hbest⟩ := closest_spec hf
    refine ⟨f,hmem,fun g hg => ?_⟩
    by_cases hlt : commonPrefixLength word g < commonPrefixLength word f
    · exact .inr hlt
    · have hfirst : closest word (g :: forms.erase g) = some g := closest_cons fun x hx =>
        Nat.le_trans (hbest x (List.mem_of_mem_erase hx)) (Nat.not_lt.mp hlt)
      have hsame := h _ _ (List.perm_cons_erase hg).symm (List.Perm.refl forms)
      rw [hfirst,hf] at hsame
      exact .inl (Option.some.inj hsame)
  · rintro ⟨f,hf⟩ a b ha hb
    rw [closest_of_nearest hf ha,closest_of_nearest hf hb]

/-! ### Verbs with one stem -/

def twins : List Text := ["initialize", "initiate"]

theorem mem_twins : f ∈ twins ↔ f = "initialize".toList ∨ f = "initiate".toList := by simp [twins]

theorem mem_of_all_ne {words : List Text} (h : words.all (fun v => v != word) = false) : word ∈ words := by
  obtain ⟨v,hv,hsame⟩ := List.all_eq_false.mp h
  rw [bne_iff_ne,ne_eq,Decidable.not_not] at hsame
  exact hsame ▸ hv

set_option maxRecDepth 50000 in
theorem imperative_of_twin (h : f ∈ twins) : f ∈ imperatives := by
  have hfound : imperatives.all (fun v => v != "initialize".toList) = false ∧
      imperatives.all (fun v => v != "initiate".toList) = false := by
    unfold imperatives
    refine ⟨all_words_ofList ?_,all_words_ofList ?_⟩
    · decide +kernel
    · decide +kernel
  rcases mem_twins.mp h with rfl | rfl
  · exact mem_of_all_ne hfound.1
  · exact mem_of_all_ne hfound.2

/-- What is asked of stems: the twins have one in common, and no other two verbs have. -/
structure TwinStems [Resources] : Prop where
  common : Resources.stem "initialize".toList = Resources.stem "initiate".toList
  only : ∀ f ∈ imperatives, ∀ g ∈ imperatives, Resources.stem f = Resources.stem g → f = g ∨ f ∈ twins ∧ g ∈ twins

/-- A word of the twins' stem that goes along with neither of them further than they go together. -/
def Torn [Resources] (word : Text) : Prop :=
  Resources.stem word = Resources.stem "initialize".toList ∧ ¬"initial".toList <+: word ∧ ¬"initiat".toList <+: word

theorem TwinStems.stem_of_twin [Resources] (ht : TwinStems) (h : f ∈ twins) :
    Resources.stem f = Resources.stem "initialize".toList := by
  rcases mem_twins.mp h with rfl | rfl
  · rfl
  · exact ht.common.symm

theorem mem_forms [Resources] (h : formsOf? word = some forms) : f ∈ forms ↔ f ∈ imperatives ∧ Resources.stem f = Resources.stem word := by
  rw [formsOf_eq] at h
  constructor
  · exact fun hf => listed_groupBy.mp ⟨forms,h,hf⟩
  · intro hf
    obtain ⟨own,hown,hmem⟩ := listed_groupBy.mpr hf
    cases h.symm.trans hown
    exact hmem

theorem mem_forms_of_twins [Resources] (htwins : TwinStems) (h : formsOf? word = some forms)
    (hstem : Resources.stem word = Resources.stem "initialize".toList) : f ∈ forms ↔ f ∈ twins := by
  rw [mem_forms h]
  constructor
  · rintro ⟨hf,hsame⟩
    have htwin : "initialize".toList ∈ twins := List.mem_cons_self
    rcases htwins.only f hf _ (imperative_of_twin htwin) (hsame.trans hstem) with rfl | hboth
    · exact htwin
    · exact hboth.1
  · exact fun hf => ⟨imperative_of_twin hf,(htwins.stem_of_twin hf).trans hstem.symm⟩

theorem forms_equal [Resources] (htwins : TwinStems) (h : formsOf? word = some forms)
    (hstem : Resources.stem word ≠ Resources.stem "initialize".toList) (hf : f ∈ forms) (hg : g ∈ forms) : g = f := by
  obtain ⟨hf,hfstem⟩ := (mem_forms h).mp hf
  obtain ⟨hg,hgstem⟩ := (mem_forms h).mp hg
  rcases htwins.only g hg f hf (hgstem.trans hfstem.symm) with rfl | hboth
  · rfl
  · exact absurd (hgstem.symm.trans (htwins.stem_of_twin hboth.1)) hstem

theorem commonPrefixLength_of_torn [Resources] (ht : Torn word) :
    commonPrefixLength word "initialize".toList = commonPrefixLength word "initiate".toList :=
  commonPrefixLength_together (p := "initia".toList) (r := "ize".toList) (t := "e".toList) ht.2.1 ht.2.2

theorem not_nearest_of_torn [Resources] (htwins : TwinStems) (h : formsOf? word = some forms) (ht : Torn word) : ¬Nearest word forms f := by
  have htie := commonPrefixLength_of_torn ht
  have hne : "initialize".toList ≠ "initiate".toList := by decide
  have hmem {g : Text} (hg : g ∈ twins) : g ∈ forms := (mem_forms_of_twins htwins h ht.1).mpr hg
  rintro ⟨hf,hbest⟩
  rcases mem_twins.mp ((mem_forms_of_twins htwins h ht.1).mp hf) with rfl | rfl
  · rcases hbest _ (hmem (mem_twins.mpr (.inr rfl))) with hsame | hlt
    · exact hne hsame.symm
    · omega
  · rcases hbest _ (hmem (mem_twins.mpr (.inl rfl))) with hsame | hlt
    · exact hne hsame
    · omega

theorem nearest_of_not_torn [Resources] (htwins : TwinStems) (h : formsOf? word = some forms) (hf : f ∈ forms) (ht : ¬Torn word) :
    ∃ f, Nearest word forms f := by
  by_cases hstem : Resources.stem word = Resources.stem "initialize".toList
  · have hmem {g : Text} : g ∈ forms ↔ g = "initialize".toList ∨ g = "initiate".toList :=
      (mem_forms_of_twins htwins h hstem).trans mem_twins
    by_cases hinitial : "initial".toList <+: word
    · have hlt : commonPrefixLength word "initiate".toList < commonPrefixLength word "initialize".toList :=
        commonPrefixLength_parting (p := "initia".toList) (r := "ize".toList) (t := "e".toList) (by decide) hinitial
      refine ⟨_,hmem.mpr (.inl rfl),fun g hg => ?_⟩
      rcases hmem.mp hg with rfl | rfl
      · exact .inl rfl
      · exact .inr hlt
    · have hinitiat : "initiat".toList <+: word := Decidable.byContradiction fun hno => ht ⟨hstem,hinitial,hno⟩
      have hlt : commonPrefixLength word "initialize".toList < commonPrefixLength word "initiate".toList :=
        commonPrefixLength_parting (p := "initia".toList) (r := "e".toList) (t := "ize".toList) (by decide) hinitiat
      refine ⟨_,hmem.mpr (.inr rfl),fun g hg => ?_⟩
      rcases hmem.mp hg with rfl | rfl
      · exact .inr hlt
      · exact .inl rfl
  · exact ⟨f,hf,fun g hg => .inl (forms_equal htwins h hstem hf hg)⟩

/-- The order of the forms does not matter exactly for the words that are not torn between the twins. -/
theorem closest_torn_iff [Resources] (htwins : TwinStems) (h : formsOf? word = some forms) (hf : f ∈ forms) :
    (∀ a b : List Text, a.Perm forms → b.Perm forms → closest word a = closest word b) ↔ ¬Torn word := by
  rw [closest_order_iff (List.ne_nil_of_mem hf)]
  constructor
  · rintro ⟨f,hnearest⟩ ht
    exact not_nearest_of_torn htwins h ht hnearest
  · exact nearest_of_not_torn htwins h hf

theorem closest_twin_first [Resources] (htwins : TwinStems) (h : formsOf? word = some forms) (ht : Torn word) (hf : f ∈ twins) :
    ∃ order : List Text, order.Perm forms ∧ closest word order = some f := by
  have htie (g : Text) (hg : g ∈ twins) :
      commonPrefixLength word g = commonPrefixLength word "initiate".toList := by
    rcases mem_twins.mp hg with rfl | rfl
    · exact commonPrefixLength_of_torn ht
    · rfl
  have hmem : f ∈ forms := (mem_forms_of_twins htwins h ht.1).mpr hf
  refine ⟨f :: forms.erase f,(List.perm_cons_erase hmem).symm,closest_cons fun g hg => ?_⟩
  have hg := (mem_forms_of_twins htwins h ht.1).mp (List.mem_of_mem_erase hg)
  exact Nat.le_of_eq ((htie g hg).trans (htie f hf).symm)

set_option maxRecDepth 50000 in
theorem not_nonImperative (h : "init".toList <+: word) : word ∉ nonImperatives := by
  have hall : nonImperatives.all (fun w => !"init".toList.isPrefixOf w) = true := by
    unfold nonImperatives
    refine all_words_ofList ?_
    decide +kernel
  intro hmem
  have hno := List.all_eq_true.mp hall word hmem
  rw [List.isPrefixOf_iff_prefix.mpr h] at hno
  cases hno

/-- Words of the twins' stem that are neither of them are judged by their forms. -/
theorem judge_of_twins [Resources] (htwins : TwinStems)
    (hstem : Resources.stem word = Resources.stem "initialize".toList) (hopen : "init".toList <+: word) (hw : word ∉ twins) :
    ∃ forms f, formsOf? word = some forms ∧ f ∈ twins ∧ judge word = .instead f := by
  have htwin : "initiate".toList ∈ twins := mem_twins.mpr (.inr rfl)
  obtain ⟨forms,hforms,hmem⟩ := listed_groupBy.mpr ⟨imperative_of_twin htwin,(htwins.stem_of_twin htwin).trans hstem.symm⟩
  have hforms : formsOf? word = some forms := by rw [formsOf_eq]; exact hforms
  obtain ⟨f,hf⟩ := exists_closest word (List.ne_nil_of_mem hmem)
  refine ⟨forms,f,hforms,(mem_forms_of_twins htwins hforms hstem).mp (closest_spec hf).1,?_⟩
  exact judgeBy_of_closest (not_nonImperative hopen) hforms (fun h => hw ((mem_forms_of_twins htwins hforms hstem).mp h)) hf

end Mood

namespace Check

open Text Mood

variable {o : CheckOptions} {s : Subject} {suggested word : Text}

/-- A form that is suggested for a first word is the closest of the verbs with its stem. It is the closest in
whichever order they are taken exactly if it shares a longer beginning with the word than all others do. Where
the twins are the only verbs with a common stem, this is so unless the word is torn between them. -/
theorem suggestion_order_iff [Resources] (h : Rule.D401.with [suggested, word] ∈ (Check.imperativeMood.run o s).findings) :
    ∃ d t first rest forms, s.docstring = some d ∧ d.value = .ok (.text t) ∧ t.words = first :: rest ∧
      word = Wording.alphanumeric first ∧ formsOf? word.lower = some forms ∧
      (∀ f, f ∈ forms ↔ f ∈ imperatives ∧ Resources.stem f = Resources.stem word.lower) ∧
      (closest word.lower forms).map Text.capitalize = some suggested ∧
      ((∀ a b : List Text, a.Perm forms → b.Perm forms → closest word.lower a = closest word.lower b) ↔
        ∃ f ∈ forms, ∀ g ∈ forms, g = f ∨ commonPrefixLength word.lower g < commonPrefixLength word.lower f) ∧
      (TwinStems →
        ((∀ a b : List Text, a.Perm forms → b.Perm forms → closest word.lower a = closest word.lower b) ↔
          ¬Torn word.lower)) := by
  obtain ⟨d,t,first,rest,hd,hv,hfirst,hmood⟩ := mood_of_mem h
  obtain ⟨form,hjudge,rfl,rfl⟩ := Wording.mem_ofMood hmood
  obtain ⟨forms,hforms,hclosest⟩ := judgeBy_instead hjudge
  have hmem := (closest_spec hclosest).1
  refine ⟨d,t,first,rest,forms,hd,hv,hfirst,rfl,hforms,fun f => mem_forms hforms,?_,
    closest_order_iff (List.ne_nil_of_mem hmem),fun htwins => closest_torn_iff htwins hforms hmem⟩
  rw [hclosest,Option.map_some]

def settledWord : Text := "def f():\n    \"\"\"Initiates it.\"\"\"\n"
def tornWord : Text := "def f():\n    \"\"\"Initiable it.\"\"\"\n"

theorem exists_suggested [Resources] {source text first low : Text} {ws : List Text} (d : Docstring)
    (hrun : ((Module.ofText "a.py" source).toOption.any fun m => m.subjects.any fun s =>
      s.docstring == some d && s.definition?.any fun f => !(f.isTest || f.isProperty [])) = true)
    (hv : d.value = .ok (.text text)) (hwords : text.words = first :: ws)
    (hletters : ∀ c ∈ first, isAsciiLetter c = true) (hlower : first.lower = low) (htwins : TwinStems)
    (hstem : Resources.stem low = Resources.stem "initialize".toList) (hopen : "init".toList <+: low) (hlow : low ∉ twins) :
    ∃ m s suggested, Module.ofText "a.py" source = .ok m ∧ s ∈ m.subjects ∧
      Rule.D401.with [suggested, first] ∈ (Check.imperativeMood.run {} s).findings := by
  obtain ⟨m,s,hm,hs,htest⟩ := Module.exists_subject hrun
  rw [Bool.and_eq_true,beq_iff_eq] at htest
  obtain ⟨f,hf,hplain⟩ := (Option.any_eq_true _ _).mp htest.2
  obtain ⟨-,form,-,-,hjudge⟩ := judge_of_twins htwins hstem hopen hlow
  refine ⟨m,s,form.capitalize,hm,hs,?_⟩
  rw [run_of_words htest.1 hv hwords hf (by simpa using hplain),alphanumeric_of_letters hletters,Wording.mood,hlower,
    hjudge]
  exact List.mem_singleton_self _

open Resources.Builtin

theorem nodup_stems_ofList {a : List Char} {p : Text → Bool}
    (h : (((Text.words a).filter p).map Resources.stem).Nodup) :
    (((Text.words (String.ofList a).toList).filter p).map Resources.stem).Nodup := by
  rwa [String.toList_ofList]

set_option maxRecDepth 50000 in
theorem nodup_stems : ((imperatives.filter (· != "initiate".toList)).map Resources.stem).Nodup := by
  unfold imperatives
  refine nodup_stems_ofList ?_
  decide +kernel

theorem twinStems : TwinStems where
  common := by decide +kernel
  only := by
    have hcommon : Resources.stem "initialize".toList = Resources.stem "initiate".toList := by decide +kernel
    have hother {f g : Text} (hf : f ∈ imperatives) (hf' : f ≠ "initiate".toList) (hg : g ∈ imperatives)
        (hg' : g ≠ "initiate".toList) (hstem : Resources.stem f = Resources.stem g) : f = g :=
      List.inj_on_of_nodup_map nodup_stems (List.mem_filter.mpr ⟨hf,bne_iff_ne.mpr hf'⟩)
        (List.mem_filter.mpr ⟨hg,bne_iff_ne.mpr hg'⟩) hstem
    have hfirst : "initialize".toList ∈ twins := mem_twins.mpr (.inl rfl)
    have hsecond : "initiate".toList ∈ twins := mem_twins.mpr (.inr rfl)
    have hpair {f : Text} (hf : f ∈ imperatives) (hf' : f ≠ "initiate".toList)
        (hstem : Resources.stem f = Resources.stem "initiate".toList) : f ∈ twins := by
      rw [hother hf hf' (imperative_of_twin hfirst) (by decide) (hstem.trans hcommon.symm)]
      exact hfirst
    intro f hf g hg hstem
    by_cases hf' : f = "initiate".toList
    · by_cases hg' : g = "initiate".toList
      · exact .inl (hf'.trans hg'.symm)
      · exact .inr ⟨hf' ▸ hsecond,hpair hg hg' (hf' ▸ hstem.symm)⟩
    · by_cases hg' : g = "initiate".toList
      · exact .inr ⟨hpair hf hf' (hg' ▸ hstem),hg' ▸ hsecond⟩
      · exact .inl (hother hf hf' hg hg' hstem)

set_option maxRecDepth 50000 in
theorem suggestion_order_initiates : ∃ m s suggested forms, Module.ofText "a.py" settledWord = .ok m ∧
    s ∈ m.subjects ∧ Rule.D401.with [suggested, "Initiates".toList] ∈ (Check.imperativeMood.run {} s).findings ∧
    formsOf? "initiates".toList = some forms ∧ ∀ a b : List Text, a.Perm forms → b.Perm forms →
      closest "initiates".toList a = closest "initiates".toList b := by
  have hlower : Text.lower "Initiates".toList = "initiates".toList := by decide +kernel
  have hwords : Text.words "Initiates it.".toList = ["Initiates".toList, "it.".toList] := by decide +kernel
  have hrun : ((Module.ofText "a.py" settledWord).toOption.any fun m => m.subjects.any fun s =>
      s.docstring == some ⟨"\"\"\"Initiates it.\"\"\"", 2, 2⟩ &&
        s.definition?.any fun f => !(f.isTest || f.isProperty [])) = true := by
    decide +kernel
  obtain ⟨m,s,suggested,hm,hs,hfound⟩ := exists_suggested _ hrun rfl hwords
    (List.all_eq_true.mp rfl) hlower twinStems (by decide +kernel) (by decide) (by decide)
  obtain ⟨-,-,-,-,forms,-,-,-,-,hforms,-,-,-,horder⟩ := suggestion_order_iff hfound
  rw [hlower] at hforms horder
  refine ⟨m,s,suggested,forms,hm,hs,hfound,hforms,(horder twinStems).mpr ?_⟩
  exact fun ht => ht.2.2 (by decide)

set_option maxRecDepth 50000 in
theorem initiable_torn : ∃ m s suggested forms a b, Module.ofText "a.py" tornWord = .ok m ∧ s ∈ m.subjects ∧
    Rule.D401.with [suggested, "Initiable".toList] ∈ (Check.imperativeMood.run {} s).findings ∧
    formsOf? "initiable".toList = some forms ∧ a.Perm forms ∧ b.Perm forms ∧
    closest "initiable".toList a = some "initialize".toList ∧
    closest "initiable".toList b = some "initiate".toList := by
  have hlower : Text.lower "Initiable".toList = "initiable".toList := by decide +kernel
  have hstem : Resources.stem "initiable".toList = Resources.stem "initialize".toList := by decide +kernel
  have hwords : Text.words "Initiable it.".toList = ["Initiable".toList, "it.".toList] := by decide +kernel
  have hrun : ((Module.ofText "a.py" tornWord).toOption.any fun m => m.subjects.any fun s =>
      s.docstring == some ⟨"\"\"\"Initiable it.\"\"\"", 2, 2⟩ &&
        s.definition?.any fun f => !(f.isTest || f.isProperty [])) = true := by
    decide +kernel
  obtain ⟨m,s,suggested,hm,hs,hfound⟩ := exists_suggested _ hrun rfl hwords
    (List.all_eq_true.mp rfl) hlower twinStems hstem (by decide) (by decide)
  obtain ⟨forms,-,hforms,-,-⟩ := judge_of_twins twinStems hstem (by decide) (by decide)
  have ht : Torn "initiable".toList := ⟨hstem,by decide,by decide⟩
  obtain ⟨a,ha,hfirst⟩ := closest_twin_first twinStems hforms ht (mem_twins.mpr (.inl rfl))
  obtain ⟨b,hb,hsecond⟩ := closest_twin_first twinStems hforms ht (mem_twins.mpr (.inr rfl))
  exact ⟨m,s,suggested,forms,a,b,hm,hs,hfound,hforms,ha,hb,hfirst,hsecond⟩

example : closest "initiable".toList twins = some "initialize".toList ∧
    closest "initiable".toList twins.reverse = some "initiate".toList := by
  decide +kernel

end Check

end DocLint
