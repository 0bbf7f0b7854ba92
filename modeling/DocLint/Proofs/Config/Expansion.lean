import DocLint.Proofs.Config.CodeLists
import DocLint.Proofs.Text.Cutting

/-!
Codes by their beginnings. No code is the beginning of another one, so that codes which are expanded already
stay as they are, and lists may be expanded once more wherever they are used.
-/

set_option autoImplicit false

namespace DocLint

open Toml (Value)

/-! ### The known codes -/

theorem Rule.code_solid (r : Rule) : r.code.length = 4 ∧ r.code.strip = r.code := by
  cases r <;> decide

namespace CodeSet

variable {a b parts : List Text} {code p : Text}

theorem mem_all : code ∈ all ↔ ∃ r : Rule, r.code = code := by
  rw [all,List.mem_eraseDups,List.mem_map]
  constructor
  · rintro ⟨r,-,hr⟩
    exact ⟨r,hr⟩
  · rintro ⟨r,hr⟩
    exact ⟨r,by cases r <;> decide,hr⟩

theorem strip_of_mem (h : code ∈ all) : code.strip = code := by
  obtain ⟨r,rfl⟩ := mem_all.mp h
  exact r.code_solid.2

theorem ne_nil_of_mem (h : code ∈ all) : code ≠ [] := by
  obtain ⟨r,rfl⟩ := mem_all.mp h
  exact List.ne_nil_of_length_pos (by rw [r.code_solid.1]; decide)

theorem eq_of_prefix (hp : p ∈ all) (hcode : code ∈ all) (h : p <+: code) : p = code := by
  obtain ⟨r,rfl⟩ := mem_all.mp hp
  obtain ⟨r',rfl⟩ := mem_all.mp hcode
  exact h.eq_of_length (r.code_solid.1.trans r'.code_solid.1.symm)

/-! ### Expansions -/

theorem fits_iff : fits p code = true ↔ p.strip ≠ [] ∧ p.strip <+: code := by
  simp [fits]

theorem mem_expand : code ∈ expand parts ↔ code ∈ all ∧ ∃ p ∈ parts, p.strip ≠ [] ∧ p.strip <+: code := by
  simp only [expand,List.mem_filter,List.any_eq_true,fits_iff]

theorem mem_union : code ∈ union a b ↔ code ∈ a ∨ code ∈ b := by
  simp only [union,List.mem_append,List.mem_filter,Bool.not_eq_true',List.contains_eq_mem,decide_eq_false_iff_not]
  by_cases h : code ∈ a <;> simp [h]

theorem mem_expand_append : code ∈ expand (a ++ b) ↔ code ∈ union (expand a) (expand b) := by
  simp only [mem_union,mem_expand,List.mem_append,or_and_right,exists_or,and_or_left]

/-- An expansion holds its codes in the order of all codes: it is known by its members. -/
theorem expand_ext (h : ∀ code, code ∈ expand a ↔ code ∈ expand b) : expand a = expand b := by
  refine List.filter_congr fun code hcode => ?_
  have hboth := h code
  simp only [expand,List.mem_filter,hcode,true_and] at hboth
  exact Bool.eq_iff_iff.mpr hboth

theorem expand_strip (parts : List Text) : expand (parts.map Text.strip).eraseDups = expand parts :=
  expand_ext fun _ => GivenSettings.mem_expand_strip.trans mem_expand.symm

theorem expand_expand (parts : List Text) : expand (expand parts) = expand parts := by
  refine expand_ext fun code => ?_
  rw [mem_expand]
  constructor
  · rintro ⟨hcode,p,hp,-,hbegins⟩
    have hknown := (mem_expand.mp hp).1
    rw [strip_of_mem hknown] at hbegins
    exact eq_of_prefix hknown hcode hbegins ▸ hp
  · intro h
    have hknown := (mem_expand.mp h).1
    refine ⟨hknown,code,h,?_⟩
    rw [strip_of_mem hknown]
    exact ⟨ne_nil_of_mem hknown,List.prefix_rfl⟩

theorem expand_nil : expand [] = [] := List.filter_eq_nil_iff.mpr fun _ _ => Bool.false_ne_true

theorem unknown_of_known (h : ∀ p ∈ parts, p ∈ all) : unknown (parts.map Text.strip).eraseDups = [] := by
  refine List.filter_eq_nil_iff.mpr fun p hp => ?_
  obtain ⟨p',hp',rfl⟩ := List.mem_map.mp hp
  rw [List.mem_eraseDups,List.mem_map] at hp'
  obtain ⟨code,hcode,rfl⟩ := hp'
  have hknown := h code hcode
  have hfits : all.any (fun c => code.isPrefixOf c) = true :=
    List.any_eq_true.mpr ⟨code,hknown,List.isPrefixOf_iff_prefix.mpr List.prefix_rfl⟩
  rw [Text.strip_strip,strip_of_mem hknown,hfits,Bool.not_true,Bool.and_false]
  exact Bool.false_ne_true

def given (codes : CodeSet) : Value := .array (codes.map .text)

end CodeSet

/-! ### Lists of settings -/

theorem codesOf_listed {v : Value} {parts : List Text} (h : ListsCodes v parts) : codesOf v =
    .ok (CodeSet.expand parts, (CodeSet.unknown (parts.map Text.strip).eraseDups).map unknownCodeWarning) := by
  rw [codesOf,codeParts_eq_ok.mpr h]
  simp only [Except.map,CodeSet.expand_strip]

/-- Parts without commas are read from a text in which commas stand between them. -/
theorem codesOf_join {parts : List Text} (h : ∀ p ∈ parts, ',' ∉ p) :
    codesOf (.text (Text.join "," parts)) = codesOf (.array (parts.map .text)) := by
  rw [codesOf_listed (.text _),codesOf_listed (.array parts)]
  cases parts with
  | nil => rfl
  | cons p ps => rw [show Text.join "," (p :: ps) = Text.join [','] (p :: ps) from rfl,Text.splitOn_join (by simp) h]

namespace GivenSettings

variable {log log' : List LogLine}

theorem expandList_listed {v : Value} {parts : List Text} (h : ListsCodes v parts) (log : List LogLine) :
    expandList (some v) log = .ok (some (CodeSet.expand parts))
      (log ++ (CodeSet.unknown (parts.map Text.strip).eraseDups).map unknownCodeWarning) := by
  simp only [expandList,codesOf_listed h]
  rfl

theorem expandList_expanded {o : Option Value} {codes : Option CodeSet} (h : expandList o log = .ok codes log') :
    codes = none ∨ ∃ parts, codes = some (CodeSet.expand parts) := by
  cases o with
  | none =>
    cases h
    exact .inl rfl
  | some v =>
    rcases listsCodes_or v with ⟨parts,hparts⟩ | ⟨e,he⟩
    · cases (expandList_listed hparts log).symm.trans h
      exact .inr ⟨parts,rfl⟩
    · cases (expandList_run_error he log).symm.trans h

theorem expandList_given (parts : List Text) (log : List LogLine) :
    expandList (some (CodeSet.given (CodeSet.expand parts))) log = .ok (some (CodeSet.expand parts)) log := by
  have hknown : ∀ p ∈ CodeSet.expand parts, p ∈ CodeSet.all := fun p hp => (CodeSet.mem_expand.mp hp).1
  rw [CodeSet.given,expandList_listed (.array _),CodeSet.unknown_of_known hknown,CodeSet.expand_expand,List.map_nil,
    List.append_nil]

end GivenSettings

namespace Settings

variable {s : Settings} {g : GivenSettings} {log log' : List LogLine}

/-- Settings as they are given once more, with their lists as arrays of codes. -/
def regiven (s : Settings) : GivenSettings where
  convention := s.convention
  select := s.select.map CodeSet.given
  ignore := s.ignore.map CodeSet.given
  addSelect := some (CodeSet.given s.addSelect)
  addIgnore := some (CodeSet.given s.addIgnore)
  files := s.files
  folders := s.folders
  ignoreDecorators := s.ignoreDecorators
  propertyDecorators := s.propertyDecorators

def IsExpanded (s : Settings) : Prop := ∀ k codes, s.list k = some codes → ∃ parts, codes = CodeSet.expand parts

theorem isExpanded_of_expand (h : g.expand log = .ok s log') : s.IsExpanded := by
  obtain ⟨ignore,log₁,hignore,h⟩ := GivenSettings.exists_of_bind h
  obtain ⟨select,log₂,hselect,h⟩ := GivenSettings.exists_of_bind h
  obtain ⟨addIgnore,log₃,haddIgnore,h⟩ := GivenSettings.exists_of_bind h
  obtain ⟨addSelect,log₄,haddSelect,h⟩ := GivenSettings.exists_of_bind h
  cases h
  have hoptional {o : Option CodeSet} (ho : o = none ∨ ∃ parts, o = some (CodeSet.expand parts)) (codes : CodeSet)
      (hcodes : o = some codes) : ∃ parts, codes = CodeSet.expand parts := by
    rcases ho with rfl | ⟨parts,rfl⟩
    · cases hcodes
    · cases hcodes
      exact ⟨parts,rfl⟩
  have hgetD {o : Option CodeSet} (ho : o = none ∨ ∃ parts, o = some (CodeSet.expand parts)) :
      ∃ parts, o.getD [] = CodeSet.expand parts := by
    rcases ho with rfl | ⟨parts,rfl⟩
    · exact ⟨[],CodeSet.expand_nil.symm⟩
    · exact ⟨parts,rfl⟩
  intro k codes hcodes
  cases k with
  | ignore => exact hoptional (GivenSettings.expandList_expanded hignore) codes hcodes
  | select => exact hoptional (GivenSettings.expandList_expanded hselect) codes hcodes
  | addIgnore => exact Option.some.inj hcodes ▸ hgetD (GivenSettings.expandList_expanded haddIgnore)
  | addSelect => exact Option.some.inj hcodes ▸ hgetD (GivenSettings.expandList_expanded haddSelect)

/-- Settings with expanded lists are not changed by expanding them, and nothing is logged. -/
theorem expand_regiven (h : s.IsExpanded) (log : List LogLine) : s.regiven.expand log = .ok s log := by
  have hlist (k : ListKey) (codes : CodeSet) (hcodes : s.list k = some codes) :
      GivenSettings.expandList (some (CodeSet.given codes)) log = .ok (some codes) log := by
    obtain ⟨parts,rfl⟩ := h k codes hcodes
    exact GivenSettings.expandList_given parts log
  have hoptional (k : ListKey) : GivenSettings.expandList ((s.list k).map CodeSet.given) log = .ok (s.list k) log := by
    cases hcodes : s.list k with
    | none => rfl
    | some codes => exact hlist k codes hcodes
  exact (Logged.bind_ok (hoptional .ignore)).trans ((Logged.bind_ok (hoptional .select)).trans
    ((Logged.bind_ok (hlist .addIgnore _ rfl)).trans (Logged.bind_ok (hlist .addSelect _ rfl))))

theorem expand_list (h : s.IsExpanded) {k : ListKey} {codes : CodeSet} (hcodes : s.list k = some codes) :
    CodeSet.expand codes = codes := by
  obtain ⟨parts,rfl⟩ := h k codes hcodes
  exact CodeSet.expand_expand parts

end Settings

/-- The laws of expansion. An expansion holds the codes of the rules that begin with one of the parts, blanks
around it apart; parts may be expanded together or one by one, and what is expanded stays as it is. So settings
whose lists are expanded are the same when they are given once more and when their lists are used, and a list of
codes may be written as a text with commas or as an array. -/
theorem expansion_laws :
    (∀ parts code, code ∈ CodeSet.expand parts ↔
      (∃ r : Rule, r.code = code) ∧ ∃ p ∈ parts, p.strip ≠ [] ∧ p.strip <+: code) ∧
    (∀ a b code, code ∈ CodeSet.expand (a ++ b) ↔ code ∈ CodeSet.union (CodeSet.expand a) (CodeSet.expand b)) ∧
    (∀ parts, CodeSet.expand (CodeSet.expand parts) = CodeSet.expand parts) ∧
    (∀ (g : GivenSettings) log s log', g.expand log = .ok s log' →
      (∀ again, s.regiven.expand again = .ok s again) ∧
      ∀ k codes, s.list k = some codes → CodeSet.expand codes = codes) ∧
    ∀ parts : List Text, (∀ p ∈ parts, ',' ∉ p) → ∀ log,
      GivenSettings.expandList (some (.text (Text.join "," parts))) log =
        GivenSettings.expandList (some (.array (parts.map .text))) log := by
  refine ⟨fun parts code => ?_,fun a b code => CodeSet.mem_expand_append,CodeSet.expand_expand,?_,?_⟩
  · rw [CodeSet.mem_expand,CodeSet.mem_all]
  · intro g log s log' h
    have hexpanded := Settings.isExpanded_of_expand h
    exact ⟨Settings.expand_regiven hexpanded,fun k codes => Settings.expand_list hexpanded⟩
  · intro parts hparts log
    simp only [GivenSettings.expandList,codesOf_join hparts]

def mixedSelection : GivenSettings := { select := some (.text " D30,, D41\n,X1") }

theorem expansion_laws_mixed : ∃ s log', mixedSelection.expand [] = .ok s log' ∧ log'.length = 1 ∧
    s.select = some (Text.literals ["D300", "D301", "D302", "D410", "D411", "D412", "D413", "D414", "D415", "D416",
      "D417", "D418", "D419"]) ∧
    (∀ again, s.regiven.expand again = .ok s again) ∧
    ',' ∉ " D30".toList ∧ ∀ log, GivenSettings.expandList (some (.text " D30")) log =
      GivenSettings.expandList (some (.array [.text " D30"])) log := by
  have hcomma : ',' ∉ " D30".toList := by decide
  obtain ⟨-,-,-,hagain,hjoined⟩ := expansion_laws
  refine ⟨_,_,rfl,by decide +kernel,by decide +kernel,(hagain mixedSelection [] _ _ rfl).1,hcomma,fun log => ?_⟩
  exact hjoined [" D30".toList] (fun p hp => List.mem_singleton.mp hp ▸ hcomma) log

end DocLint
