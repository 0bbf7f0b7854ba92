import DocLint.Config.Selection
import DocLint.Proofs.Answer
import DocLint.Proofs.Pattern.EndMark
import DocLint.Resources.Builtin

/-!
Names that are taken by a pattern. The mark for the end that stands behind the text of a pattern belongs to
its last alternative only, or to a comment, and it is satisfied before a line feed at the end too.
-/

set_option autoImplicit false

namespace DocLint

namespace Pattern

variable {x x' : Source} {name : Text}

abbrev endsIn (p : Pattern) (t : Text) : List Spot := p.ends { rest := t }

theorem endsIn_suffix {p : Pattern} {y : Spot} (h : y ∈ p.endsIn name) : y.rest <:+ name := by
  obtain ⟨taken,hname⟩ := onward_of_mem p _ y h
  exact ⟨taken,hname.symm⟩

namespace Source

def earlier (x : Source) : List Pattern := x.alternatives.dropLast

def last (x : Source) : Pattern := x.alternatives.getLast?.getD .empty

def MatchesWhole (x : Source) (name : Text) : Prop := ∃ y ∈ x.pattern.endsIn name, y.rest = []

/-- Something of a name is overlooked: what stands behind a match, if the text of the pattern ends in a comment
or an alternative before the last one has been matched; a line feed at the end behind a match of the last one,
or any line feed if it regards lines, and what stands behind it. -/
def Overlooks (x : Source) (name : Text) : Prop :=
  (x.inComment = true ∧ ∃ y ∈ x.pattern.endsIn name, y.rest ≠ []) ∨
    (∃ p ∈ x.earlier, ∃ y ∈ p.endsIn name, y.rest ≠ []) ∨
      ∃ y ∈ x.last.endsIn name, y.rest = ['\n'] ∨ x.multiline = true ∧ y.rest.head? = some '\n'

instance (x : Source) (name : Text) : Decidable (x.MatchesWhole name) := by
  unfold MatchesWhole
  infer_instance

instance (x : Source) (name : Text) : Decidable (x.Overlooks name) := by
  unfold Overlooks
  infer_instance

/-- Nothing of a name is overlooked where there is one alternative, no comment and no line feed to be taken
for the end. -/
theorem not_overlooks (hbar : x.earlier = []) (hcomment : x.inComment = false)
    (hname : '\n' ∉ name ∨ x.multiline = false ∧ name.getLast? ≠ some '\n') : ¬ x.Overlooks name := by
  rintro (⟨hc,-⟩ | ⟨p,hp,-⟩ | ⟨y,hy,hrest⟩)
  · simp [hcomment] at hc
  · simp [hbar] at hp
  · obtain ⟨taken,htaken⟩ := endsIn_suffix hy
    obtain hnone | ⟨hlines,hend⟩ := hname
    · have hmem : '\n' ∈ y.rest := by
        obtain hrest | ⟨-,hrest⟩ := hrest
        · simp [hrest]
        · exact List.mem_of_mem_head? hrest
      exact hnone (htaken ▸ List.mem_append_right _ hmem)
    · obtain hrest | ⟨hlines',-⟩ := hrest
      · exact hend (by simp [← htaken,hrest])
      · simp [hlines] at hlines'

theorem holds_stop_iff (lines : Bool) (y : Spot) :
    (if lines then Anchor.lineStop else .stop).holds y = true ↔
      y.rest = [] ∨ y.rest = ['\n'] ∨ lines = true ∧ y.rest.head? = some '\n' := by
  cases lines <;> cases hrest : y.rest with
    | nil => simp [Anchor.holds,hrest]
    | cons c cs => cases cs <;> simp [Anchor.holds,hrest]

theorem mem_endsIn_anchored {qs : List Pattern} {a : Anchor} {y : Spot} :
    y ∈ (inOrder (qs ++ [.anchor a])).endsIn name ↔ y ∈ (inOrder qs).endsIn name ∧ a.holds y = true := by
  rw [endsIn,ends_inOrder_concat,List.mem_flatMap]
  constructor
  · rintro ⟨z,hz,hy⟩
    by_cases ha : a.holds z = true
    · rw [ends,if_pos ha,List.mem_singleton] at hy
      exact hy ▸ ⟨hz,ha⟩
    · rw [ends,if_neg ha] at hy
      cases hy
  · rintro ⟨hy,ha⟩
    exact ⟨y,hy,by rw [ends,if_pos ha]; exact List.mem_singleton_self y⟩

theorem mem_endsIn_iff (x : Source) {y : Spot} :
    y ∈ x.pattern.endsIn name ↔ (∃ p ∈ x.earlier, y ∈ p.endsIn name) ∨ y ∈ x.last.endsIn name := by
  unfold pattern earlier last
  obtain hnil | ⟨before,p,hps⟩ := List.eq_nil_or_concat x.alternatives
  · simp [hnil,anyOf]
  · rw [hps,endsIn,ends_anyOf (by simp)]
    simp [endsIn]

theorem IsMarked.matchesOpening_iff (h : IsMarked x x') :
    x'.pattern.matchesOpening name = true ↔ x.MatchesWhole name ∨ x.Overlooks name := by
  rw [Pattern.matchesOpening_iff]
  cases hc : x.inComment with
  | true =>
    rw [IsMarked,if_pos hc] at h
    have hsame : x'.pattern = x.pattern := congrArg anyOf h
    rw [hsame]
    constructor
    · rintro ⟨y,hy⟩
      by_cases hrest : y.rest = []
      · exact .inl ⟨y,hy,hrest⟩
      · exact .inr (.inl ⟨hc,y,hy,hrest⟩)
    · rintro (⟨y,hy,-⟩ | ⟨-,y,hy,-⟩ | ⟨q,hq,y,hy,-⟩ | ⟨y,hy,-⟩)
      · exact ⟨y,hy⟩
      · exact ⟨y,hy⟩
      · exact ⟨y,x.mem_endsIn_iff.mpr (.inl ⟨q,hq,hy⟩)⟩
      · exact ⟨y,x.mem_endsIn_iff.mpr (.inr hy)⟩
  | false =>
    rw [IsMarked,if_neg (by simp [hc])] at h
    obtain ⟨before,qs,hx,hx'⟩ := h
    have hearlier : x'.earlier = x.earlier := by simp [earlier,hx,hx']
    have hlast : x.last = inOrder qs := by simp [last,hx]
    have hlast' : x'.last = inOrder (qs ++ [.anchor (if x.multiline then .lineStop else .stop)]) := by
      simp [last,hx']
    simp only [MatchesWhole,Overlooks,mem_endsIn_iff,hearlier,hlast,hlast',mem_endsIn_anchored,holds_stop_iff,hc]
    constructor
    · rintro ⟨y,⟨q,hq,hy⟩ | ⟨hy,hend | hend⟩⟩
      · by_cases hrest : y.rest = []
        · exact .inl ⟨y,.inl ⟨q,hq,hy⟩,hrest⟩
        · exact .inr (.inr (.inl ⟨q,hq,y,hy,hrest⟩))
      · exact .inl ⟨y,.inr hy,hend⟩
      · exact .inr (.inr (.inr ⟨y,hy,hend⟩))
    · rintro (⟨y,⟨q,hq,hy⟩ | hy,hend⟩ | ⟨hfalse,-⟩ | ⟨q,hq,y,hy,-⟩ | ⟨y,hy,hend⟩)
      · exact ⟨y,.inl ⟨q,hq,hy⟩⟩
      · exact ⟨y,.inr ⟨hy,.inl hend⟩⟩
      · cases hfalse
      · exact ⟨y,.inl ⟨q,hq,hy⟩⟩
      · exact ⟨y,.inr ⟨hy,.inr hend⟩⟩

/-- A test takes the names that a pattern matches as a whole, and those of which it overlooks something. -/
structure TakenBy (takes : Text → Bool) (x : Source) : Prop where
  taken : ∀ name, takes name = true ↔ x.MatchesWhole name ∨ x.Overlooks name
  whole : x.earlier = [] → x.inComment = false → ∀ name,
    '\n' ∉ name ∨ x.multiline = false ∧ name.getLast? ≠ some '\n' → (takes name = true ↔ x.MatchesWhole name)

theorem IsMarked.takenBy (h : IsMarked x x') : TakenBy x'.matcher.opens x := by
  refine ⟨fun name => h.matchesOpening_iff,fun hbar hcomment name hname => ?_⟩
  rw [matcher,h.matchesOpening_iff]
  exact or_iff_left (not_overlooks hbar hcomment hname)

end Source

end Pattern

namespace Sieve

open Toml (Value)
open Pattern (Source)

theorem wholePattern_of_ofText? [Resources] {named? : Text → Option Char} (hpatterns : Resources.MatchesPatterns named?)
    {t : Text} {x : Source} (h : Source.ofText? named? t = some x) :
    ∃ m, wholePattern (.text t) = .ok m ∧ Source.TakenBy m.opens x := by
  obtain ⟨x',hx',hmarked⟩ := Source.ofText?_mark h
  refine ⟨x'.matcher,?_,hmarked.takenBy⟩
  rw [wholePattern,matcherOf,hpatterns,hx']
  rfl

/-- Where the patterns of a configuration are well formed, files and folders are taken by them. -/
theorem takes_names [Resources] (named? : Text → Option Char) (hpatterns : Resources.MatchesPatterns named?)
    (c : Config) (t₁ t₂ : Text) (x₁ x₂ : Source) (d : Option (Text × Matcher)) (hfiles : c.files = .text t₁)
    (hfolders : c.folders = .text t₂) (h₁ : Source.ofText? named? t₁ = some x₁)
    (h₂ : Source.ofText? named? t₂ = some x₂) (hd : decoratorPattern c.ignoreDecorators = .ok d) :
    ∃ s, ofConfig c = .ok s ∧ Source.TakenBy s.takesFile x₁ ∧ Source.TakenBy s.takesFolder x₂ := by
  obtain ⟨m₁,hm₁,htaken₁⟩ := wholePattern_of_ofText? hpatterns h₁
  obtain ⟨m₂,hm₂,htaken₂⟩ := wholePattern_of_ofText? hpatterns h₂
  refine ⟨⟨m₁, m₂, d, decoratorNames c.propertyDecorators⟩,?_,htaken₁,htaken₂⟩
  rw [ofConfig,hfiles,hfolders,hm₁,hm₂,hd]
  rfl

/-- Files whose names are one of two letters, in folders whose names are one letter by a pattern that ends in
a comment. -/
def barred : Config where
  codes := .standard
  files := .text "a|b"
  folders := .text "(?x)a#c"
  ignoreDecorators := .text ""
  propertyDecorators := .text ""

def letter (c : Char) : Pattern := Pattern.inOrder [(Pattern.single {} (.code c.toNat)).pattern]

def barredFiles : Source := { alternatives := [letter 'a', letter 'b'] }

def barredFolders : Source := { alternatives := [letter 'a'], inComment := true }

open Resources.Builtin

theorem takes_names_barred : ∃ s, ofConfig barred = .ok s ∧
    (s.takesFile "b" = true ∧ barredFiles.MatchesWhole "b") ∧
    (s.takesFile "ab" = true ∧ barredFiles.Overlooks "ab") ∧ s.takesFile "ba" = false ∧
    (s.takesFolder "a" = true ∧ barredFolders.MatchesWhole "a") ∧
    (s.takesFolder "ab" = true ∧ barredFolders.Overlooks "ab") ∧ s.takesFolder "b" = false := by
  obtain ⟨s,hs,hfiles,hfolders⟩ := takes_names charNamed? (fun _ => rfl) barred "a|b" "(?x)a#c" barredFiles
    barredFolders none rfl rfl (by decide +kernel) (by decide +kernel) rfl
  have hb : barredFiles.MatchesWhole "b" := by decide
  have hab : barredFiles.Overlooks "ab" := by decide
  have hba : ¬ (barredFiles.MatchesWhole "ba" ∨ barredFiles.Overlooks "ba") := by decide
  have ha : barredFolders.MatchesWhole "a" := by decide
  have hab' : barredFolders.Overlooks "ab" := by decide
  have hb' : ¬ (barredFolders.MatchesWhole "b" ∨ barredFolders.Overlooks "b") := by decide
  refine ⟨s,hs,⟨(hfiles.taken _).mpr (.inl hb),hb⟩,⟨(hfiles.taken _).mpr (.inr hab),hab⟩,?_,
    ⟨(hfolders.taken _).mpr (.inl ha),ha⟩,⟨(hfolders.taken _).mpr (.inr hab'),hab'⟩,?_⟩
  · exact Bool.eq_false_iff.mpr fun h => hba ((hfiles.taken _).mp h)
  · exact Bool.eq_false_iff.mpr fun h => hb' ((hfolders.taken _).mp h)

/-- The first of two alternatives takes a name of which it matches the beginning only. -/
theorem barred_takes_beginning : (∃ s, ofConfig barred = .ok s ∧ s.takesFile "ab" = true) ∧
    Source.ofText? charNamed? "a|b" = some barredFiles ∧ ¬ barredFiles.MatchesWhole "ab" :=
  ⟨exists_of_any (by decide +kernel),by decide +kernel,by decide⟩

end Sieve

end DocLint
