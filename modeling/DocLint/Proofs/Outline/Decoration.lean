import Mathlib.Data.List.TakeWhile
import DocLint.Proofs.Answer
import DocLint.Proofs.Lists
import DocLint.Proofs.Outline.Display
import DocLint.Proofs.Outline.Leads
import DocLint.Resources.Builtin
import DocLint.Violation

/-!
Decorators on their lines, with arguments and comments, and what of them is attached to the definition
below. A decorator keeps its name if no comment follows a bare name and if no `@` stands in the arguments.
-/

set_option autoImplicit false

namespace DocLint

namespace Outline

variable {t : Token} {ts us : List Token} {fresh : Bool} {ds : List Decorator} {region : Region}
  {exporting : Bool}

/-! ### Lines of decorators -/

structure Remark extends TokenOf .comment where
  written : token.value ≠ []

structure Pause extends Blank where
  written : token.kind = .comment → token.value ≠ []

structure DottedName where
  first : TokenOf .name
  others : List (Operator "." × TokenOf .name)
  plain : (first.token :: others.map (·.2.token)).all (!opensDecorated ·) = true

def DottedName.tokens (n : DottedName) : List Token :=
  n.first.token :: n.others.flatMap fun (dot, name) => [dot.token, name.token]

def DottedName.text (n : DottedName) : Text := n.tokens.flatMap (·.value)

structure Arguments where
  opening : Operator "("
  inside : List Token
  closing : Operator ")"
  code : inside.all isCode = true
  plain : (inside.any fun t => t.is .name "def" || t.is .name "class") = false

def Arguments.tokens (a : Arguments) : List Token := a.opening.token :: a.inside ++ [a.closing.token]

structure Decoration where
  mark : Operator "@"
  name : DottedName
  arguments : Option Arguments
  remark : Option Remark
  newline : TokenOf .newline
  gap : List Pause

namespace Decoration

def onLine (l : Decoration) : List Token :=
  l.name.tokens ++ ((l.arguments.map Arguments.tokens).getD [] ++ (l.remark.map (·.token)).toList)

def behind (l : Decoration) : List Token := l.onLine ++ l.newline.token :: l.gap.map (·.token)

def tokens (l : Decoration) : List Token := l.mark.token :: l.behind

end Decoration

/-- A token adds to the decorator under way, or closes it if another one opens. -/
def gather (p : List Decorator × OpenDecorator) (t : Token) : List Decorator × OpenDecorator :=
  if t.is .op "@" then (p.1 ++ [p.2.close], {}) else (p.1, p.2.extend t)

def gathered (ts : List Token) : List Decorator :=
  let p := ts.foldl gather ([], {})
  p.1 ++ [p.2.close]

namespace Decoration

/-- What is attached for a line: reading stops at a word that could open the definition. -/
def attached (l : Decoration) : List Decorator := gathered (l.behind.takeWhile (!opensDecorated ·))

/-- Whether a line gives one decorator with its name: a bare name is not followed by comments, and no
mark stands in the arguments before a word that could open the definition. -/
def isKept (l : Decoration) : Bool :=
  match l.arguments with
  | none => l.remark.isNone && l.gap.all (·.token.kind != .comment)
  | some a => (a.inside.takeWhile (!opensDecorated ·)).all (!·.is .op "@")

end Decoration

/-! ### Gathering decorators -/

variable {d : OpenDecorator}

theorem foldl_gather (ds : List Decorator) (d : OpenDecorator) (ts : List Token) :
    ts.foldl gather (ds, d) = (ds ++ (ts.foldl gather ([], d)).1, (ts.foldl gather ([], d)).2) := by
  induction ts generalizing ds d with
  | nil => simp
  | cons t ts ih =>
    rw [List.foldl_cons,List.foldl_cons,gather,gather]
    split
    · rw [ih,ih ([] ++ [d.close])]
      simp
    · exact ih ds _

theorem foldl_gather_plain (h : ∀ x ∈ ts, x.is .op "@" = false) :
    ts.foldl gather (ds, d) = (ds, ts.foldl OpenDecorator.extend d) := by
  induction ts generalizing d with
  | nil => rfl
  | cons t ts ih =>
    rw [List.foldl_cons,List.foldl_cons,gather,h t (by simp)]
    exact ih fun x hx => h x (by simp [hx])

theorem length_foldl_gather (d : OpenDecorator) (ts : List Token) :
    (ts.foldl gather ([], d)).1.length = ts.countP (·.is .op "@") := by
  induction ts generalizing d with
  | nil => rfl
  | cons t ts ih =>
    rw [List.foldl_cons,gather,List.countP_cons]
    split
    · rw [foldl_gather,List.length_append,ih]
      simp [Nat.add_comm]
    · rw [ih]
      simp

/-- In the loop, the tokens up to a word that could open the definition are gathered. -/
theorem Loops.gather {b : Unit} {q : Spot} (hts : ∀ x ∈ ts, opensDecorated x = false) (hus : us ≠ [])
    (h : Loops decoratorStep (ts.foldl gather (ds, d)).2
      (.before us (ts.foldl freshAfter fresh) (ts.foldl gather (ds, d)).1) b q) :
    Loops decoratorStep d (.before (ts ++ us) fresh ds) b q := by
  induction ts generalizing d fresh ds with
  | nil => exact h
  | cons x ts ih =>
    have hx := hts x (by simp)
    have hne : ts ++ us ≠ [] := by simp [hus]
    have hlt : ∀ f ds', (Spot.before (ts ++ us) f ds').rest.length <
        (Spot.before (x :: ts ++ us) fresh ds).rest.length := by simp [Spot.before]
    rw [List.foldl_cons,List.foldl_cons] at h
    refine Loops.next (c := (Outline.gather (ds, d) x).2)
      (q := .before (ts ++ us) (freshAfter fresh x) (Outline.gather (ds, d) x).1) ?_ (hlt _ _)
      (ih (fun y hy => hts y (by simp [hy])) h)
    refine Runs.bind Runs.current? (Runs.bind (Runs.note _) ?_)
    simp only [hx,Bool.false_eq_true,if_false,Outline.gather]
    split
    · exact Runs.bind (addDecorator_runs _) (Runs.bind (Runs.move hne) Runs.pure)
    · exact Runs.bind (Runs.move hne) Runs.pure

/-! ### Names of decorators -/

structure Naming (t : Token) : Prop where
  notOpening : opensDecorated t = false
  notMark : t.is .op "@" = false
  extend : ∀ d : OpenDecorator, d.inArguments = false → d.extend t = { d with name := d.name ++ t.value }

theorem DottedName.naming (n : DottedName) : ∀ x ∈ n.tokens, Naming x := by
  have hplain := List.all_eq_true.mp n.plain
  have hname {x : Token} (hk : x.kind = .name) (hx : (!opensDecorated x) = true) : Naming x := by
    refine ⟨by simpa using hx,is_op_of_kind_ne (by simp [hk]),fun d hd => ?_⟩
    simp [OpenDecorator.extend,is_op_of_kind_ne (t := x) (by simp [hk]),hk,hd]
  have hdot {x : Token} (hx : x.is .op "." = true) : Naming x := by
    refine ⟨by simp [opensDecorated,kind_of_is hx],is_op_ne hx (by decide),fun d hd => ?_⟩
    rw [OpenDecorator.extend,is_op_ne hx (w := "(") (by decide),is_op_ne hx (w := ")") (by decide)]
    simp [kind_of_is hx,hd]
  intro x hx
  simp only [tokens,List.mem_cons,List.mem_flatMap] at hx
  rcases hx with rfl | ⟨⟨dot,name⟩,hmem,rfl | rfl | hx⟩
  · exact hname n.first.isKind (hplain _ (by simp))
  · exact hdot dot.isOperator
  · exact hname name.isKind (hplain _ (List.mem_cons_of_mem _ (List.mem_map_of_mem hmem)))
  · simp at hx

theorem foldl_extend_naming (h : ∀ x ∈ ts, Naming x) (hd : d.inArguments = false) :
    ts.foldl OpenDecorator.extend d = { d with name := d.name ++ ts.flatMap (·.value) } := by
  induction ts generalizing d with
  | nil => simp
  | cons t ts ih =>
    rw [List.foldl_cons,(h t (by simp)).extend d hd,ih (d := { d with name := d.name ++ t.value })
      (fun x hx => h x (by simp [hx])) hd]
    simp

def remarksIn (ts : List Token) : List Token := ts.filter (·.kind == .comment)

theorem foldl_extend_fillers (h : ∀ x ∈ ts, isFiller x = true) (hd : d.inArguments = false) :
    ts.foldl OpenDecorator.extend d = { d with name := d.name ++ (remarksIn ts).flatMap (·.value) } := by
  induction ts generalizing d with
  | nil => simp [remarksIn]
  | cons t ts ih =>
    have hrest := fun (d : OpenDecorator) (hd : d.inArguments = false) =>
      ih (fun x hx => h x (by simp [hx])) hd
    rw [List.foldl_cons]
    by_cases hk : t.kind = .comment
    · have hop (w : Text) : t.is .op w = false := is_op_of_kind_ne (by simp [hk])
      have hext : d.extend t = { d with name := d.name ++ t.value } := by
        simp [OpenDecorator.extend,hop,hk,hd]
      rw [hext,hrest { d with name := d.name ++ t.value } hd]
      simp [remarksIn,hk]
    · have hend : t.kind = .newline ∨ t.kind = .nl := by
        have hf := h t (by simp)
        unfold isFiller at hf
        cases hk' : t.kind <;> simp_all
      rw [extend_lineEnd d hend,hrest d hd]
      simp [remarksIn,hk]

theorem foldl_extend_inArguments (hd : d.inArguments = true) :
    (ts.foldl OpenDecorator.extend d).name = d.name := by
  induction ts generalizing d with
  | nil => rfl
  | cons t ts ih =>
    have hext : (d.extend t).inArguments = true ∧ (d.extend t).name = d.name := by
      unfold OpenDecorator.extend
      repeat' split
      all_goals simp_all
    rw [List.foldl_cons,ih hext.1,hext.2]

theorem not_opensDecorated_of_filler (h : isFiller t = true) :
    opensDecorated t = false ∧ t.is .op "@" = false := by
  unfold isFiller at h
  unfold opensDecorated Token.is
  cases hk : t.kind <;> simp_all

namespace Decoration

def fillers (l : Decoration) : List Token :=
  (l.remark.map (·.token)).toList ++ l.newline.token :: l.gap.map (·.token)

theorem isFiller_fillers (l : Decoration) : ∀ x ∈ l.fillers, isFiller x = true := by
  intro x hx
  simp only [fillers,List.mem_append,Option.mem_toList,Option.map_eq_some_iff,List.mem_cons,
    List.mem_map] at hx
  rcases hx with ⟨c,-,rfl⟩ | rfl | ⟨b,-,rfl⟩
  · simp [isFiller,c.isKind]
  · simp [isFiller,l.newline.isKind]
  · exact isFiller_of_blank b.isBlank

theorem behind_eq (l : Decoration) :
    l.behind = l.name.tokens ++ ((l.arguments.map Arguments.tokens).getD [] ++ l.fillers) := by
  simp [behind,onLine,fillers]

theorem remarksIn_fillers (l : Decoration) : (remarksIn l.fillers).flatMap (·.value) = [] ↔
    (l.remark.isNone && l.gap.all (·.token.kind != .comment)) = true := by
  have hnewline : l.newline.token.kind ≠ .comment := by simp [l.newline.isKind]
  rw [List.flatMap_eq_nil_iff,Bool.and_eq_true,List.all_eq_true]
  constructor
  · intro h
    refine ⟨?_,fun b hb => ?_⟩
    · cases hr : l.remark with
      | none => rfl
      | some c => exact absurd (h c.token (by simp [remarksIn,fillers,hr,c.isKind])) c.written
    · rw [bne_iff_ne]
      intro hk
      refine absurd (h b.token (List.mem_filter.mpr ⟨?_,by simp [hk]⟩)) (b.written hk)
      simp only [fillers,List.mem_append,List.mem_cons,List.mem_map]
      exact .inr (.inr ⟨b,hb,rfl⟩)
  · rintro ⟨hr,hgap⟩ x hx
    obtain ⟨hx,hk⟩ := List.mem_filter.mp hx
    have hk : x.kind = .comment := beq_iff_eq.mp hk
    simp only [fillers,Option.isNone_iff_eq_none.mp hr,Option.map_none,Option.toList_none,List.nil_append,
      List.mem_cons,List.mem_map] at hx
    rcases hx with rfl | ⟨b,hb,rfl⟩
    · exact absurd hk hnewline
    · exact absurd hk (bne_iff_ne.mp (hgap b hb))

theorem attached_bare (l : Decoration) (h : l.arguments = none) :
    l.attached = [⟨l.name.text ++ (remarksIn l.fillers).flatMap (·.value), []⟩] := by
  have hplain : ∀ x ∈ l.behind, opensDecorated x = false ∧ x.is .op "@" = false := by
    intro x hx
    rw [behind_eq,h] at hx
    rcases List.mem_append.mp hx with hx | hx
    · exact ⟨(l.name.naming x hx).notOpening,(l.name.naming x hx).notMark⟩
    · exact not_opensDecorated_of_filler (l.isFiller_fillers x (by simpa using hx))
  rw [attached,List.takeWhile_eq_self_iff.2 fun x hx => by simp [(hplain x hx).1],gathered,
    foldl_gather_plain fun x hx => (hplain x hx).2,behind_eq,h,List.foldl_append,
    foldl_extend_naming l.name.naming rfl]
  simp only [Option.map_none,Option.getD_none,List.nil_append]
  rw [foldl_extend_fillers l.isFiller_fillers rfl]
  simp [OpenDecorator.close,DottedName.text]

theorem behind_arguments (l : Decoration) {a : Arguments} (h : l.arguments = some a) :
    l.behind = (l.name.tokens ++ [a.opening.token]) ++ (a.inside ++ (a.closing.token :: l.fillers)) := by
  simp [behind_eq,h,Arguments.tokens]

theorem not_opensDecorated_opening (l : Decoration) {a : Arguments} :
    ∀ x ∈ l.name.tokens ++ [a.opening.token], opensDecorated x = false := by
  intro x hx
  rcases List.mem_append.mp hx with hx | hx
  · exact (l.name.naming x hx).notOpening
  · rw [List.mem_singleton.mp hx]
    simp [opensDecorated,kind_of_is a.opening.isOperator]

theorem attached_arguments (l : Decoration) {a : Arguments} (h : l.arguments = some a) :
    ∃ d : OpenDecorator, d.inArguments = true ∧ d.name = l.name.text ∧ ∃ r : List Token,
      l.attached = (r.foldl gather ([], d)).1 ++ [(r.foldl gather ([], d)).2.close] ∧
        (r.any (·.is .op "@") = (a.inside.takeWhile (!opensDecorated ·)).any (·.is .op "@")) := by
  have hfiller : ∀ x ∈ a.closing.token :: l.fillers, x.is .op "@" = false := by
    intro x hx
    rcases List.mem_cons.mp hx with rfl | hx
    · exact is_op_ne a.closing.isOperator (by decide)
    · exact (not_opensDecorated_of_filler (l.isFiller_fillers x hx)).2
  refine ⟨{ name := l.name.text, inArguments := true },rfl,rfl,
    (a.inside ++ (a.closing.token :: l.fillers)).takeWhile (!opensDecorated ·),?_,?_⟩
  · have hopening : gather ([], { name := l.name.text }) a.opening.token =
        ([], { name := l.name.text, inArguments := true }) := by
      rw [gather,is_op_ne a.opening.isOperator (by decide),OpenDecorator.extend,a.opening.isOperator]
      rfl
    rw [attached,behind_arguments l h,List.takeWhile_append_of_pos fun x hx => by
      simp [not_opensDecorated_opening l x hx],gathered,List.foldl_append,List.foldl_append,
      foldl_gather_plain fun x hx => (l.name.naming x hx).notMark,foldl_extend_naming l.name.naming rfl]
    simp only [List.foldl_cons,List.foldl_nil,List.nil_append]
    rw [show l.name.tokens.flatMap (·.value) = l.name.text from rfl,hopening]
  · rw [List.takeWhile_append]
    split
    · rename_i hall
      have hrest : ((a.closing.token :: l.fillers).takeWhile (!opensDecorated ·)).any (·.is .op "@") = false :=
        List.any_eq_false.mpr fun x hx => Bool.eq_false_iff.mp (hfiller x (List.takeWhile_subset _ hx))
      rw [List.any_append,hrest,Bool.or_false,List.IsPrefix.eq_of_length (List.takeWhile_prefix _) hall]
    · rfl

/-- What is attached for a line has its name, and nothing else is, exactly if the line is kept. -/
theorem attached_names_iff (l : Decoration) :
    l.attached.map (·.name) = [l.name.text] ↔ l.isKept = true := by
  unfold isKept
  cases h : l.arguments with
  | none =>
    rw [attached_bare l h,← remarksIn_fillers]
    simp
  | some a =>
    obtain ⟨d,hd,hname,r,hattached,hmark⟩ := attached_arguments l h
    have hkept : (a.inside.takeWhile (!opensDecorated ·)).all (!·.is .op "@") = true ↔
        ∀ x ∈ r, x.is .op "@" = false := by
      have hall := List.not_any_eq_all_not (l := a.inside.takeWhile (!opensDecorated ·))
        (p := (·.is .op "@".toList))
      rw [← hall,← hmark,Bool.not_eq_true',List.any_eq_false]
      simp only [Bool.not_eq_true]
    simp only [hkept]
    constructor
    · intro hone x hx
      have hlength := congrArg List.length hone
      rw [List.length_map,hattached,List.length_append,length_foldl_gather] at hlength
      have hcount : r.countP (·.is .op "@") = 0 := by simpa using hlength
      exact Bool.eq_false_iff.mpr (List.countP_eq_zero.mp hcount x hx)
    · intro hplain
      rw [hattached,foldl_gather_plain hplain]
      simp [OpenDecorator.close,foldl_extend_inArguments hd,hname]

theorem attached_ne_nil (l : Decoration) : l.attached ≠ [] := by simp [attached,gathered]

end Decoration

/-! ### From the first line to the definition -/

theorem foldl_freshAfter_inner (h : ∀ x ∈ ts, x.kind.isInner = true) : ts.foldl freshAfter false = false := by
  induction ts with
  | nil => rfl
  | cons t ts ih =>
    rw [List.foldl_cons,freshAfter_code (h t (by simp))]
    exact ih fun x hx => h x (by simp [hx])

theorem Arguments.isCode_inside (a : Arguments) : ∀ x ∈ a.inside, isCode x = true :=
  List.all_eq_true.mp a.code

theorem Remark.isCode (r : Remark) : isCode r.token = true := by
  simp [Outline.isCode,r.isKind,r.written,r.spelled,TokenKind.isInner]

theorem Arguments.parenthesised (a : Arguments) (r : Option Remark) :
    Parenthesised (a.inside ++ a.closing.token :: (r.map (·.token)).toList) := by
  have hclosing := a.closing.isOperator
  have hcode : isCode a.closing.token = true := by
    simp only [isCode,isWellSpelled,value_of_is hclosing,kind_of_is hclosing]
    decide
  have hremark : ∀ x ∈ (r.map (·.token)).toList, isCode x = true ∧ x.kind = .comment := by
    intro x hx
    obtain ⟨c,-,rfl⟩ := Option.map_eq_some_iff.mp (Option.mem_toList.mp hx)
    exact ⟨c.isCode,c.isKind⟩
  have hall : ∀ x ∈ a.inside ++ a.closing.token :: (r.map (·.token)).toList, isCode x = true := by
    intro x hx
    rcases List.mem_append.mp hx with hx | hx
    · exact a.isCode_inside x hx
    · rcases List.mem_cons.mp hx with rfl | hx
      · exact hcode
      · exact (hremark x hx).1
  refine ⟨hall,fun x hx => ?_,fun x b hb hx => ?_⟩
  · rcases List.mem_append.mp hx with hx | hx
    · exact Bool.eq_false_iff.mpr (List.any_eq_false.mp a.plain x hx)
    · rcases List.mem_cons.mp hx with rfl | hx
      · simp [Token.is,kind_of_is hclosing]
      · simp [Token.is,(hremark x hx).2]
  · have hguide : x.kind = .name ∨ x.kind = .op ∧ x.value = "(".toList := by
      refine hx.imp_right fun hv => ⟨?_,hv⟩
      have hcode := hall x (hb.subset List.mem_cons_self)
      simp only [isCode,Bool.and_eq_true] at hcode
      exact op_of_mark hcode.2 hv (by decide) (by decide)
    have hxc : x ≠ a.closing.token := by
      rintro rfl
      rw [kind_of_is hclosing,value_of_is hclosing] at hguide
      revert hguide
      decide
    have hxr : x ∉ (r.map (·.token)).toList := fun hr => by
      simp [(hremark x hr).2] at hguide
    obtain ⟨d,rfl,-⟩ := suffix_before hb hxc hxr
    exact ⟨d,_,_,rfl,hclosing⟩

namespace Decoration

theorem inner_onLine (l : Decoration) : ∀ x ∈ l.onLine, x.kind.isInner = true := by
  have hop {w : Text} (o : Operator w) : o.token.kind.isInner = true := by
    rw [kind_of_is o.isOperator]
    rfl
  intro x hx
  simp only [onLine,DottedName.tokens,List.mem_append,List.mem_cons,List.mem_flatMap,
    Option.mem_toList,Option.map_eq_some_iff] at hx
  rcases hx with (rfl | ⟨⟨dot,name⟩,-,rfl | rfl | hx⟩) | hx | ⟨r,-,rfl⟩
  · rw [l.name.first.isKind]
    rfl
  · exact hop dot
  · rw [name.isKind]
    rfl
  · simp at hx
  · cases h : l.arguments with
    | none => simp [h] at hx
    | some a =>
      simp only [h,Option.map_some,Option.getD_some,Arguments.tokens,List.cons_append,List.mem_cons,
        List.mem_append,List.not_mem_nil,or_false] at hx
      rcases hx with rfl | hx | rfl
      · exact hop a.opening
      · exact inner_of_isInLine (isInLine_of_isCode (a.isCode_inside x hx))
      · exact hop a.closing
  · rw [r.isKind]
    rfl

theorem fresh_behind (l : Decoration) (fresh : Bool) : l.behind.foldl freshAfter fresh = true := by
  have hnewline (f : Bool) : freshAfter f l.newline.token = true := by
    simp [freshAfter,l.newline.isKind,TokenKind.endsStatement]
  have hgap (gap : List Pause) : (gap.map (·.token)).foldl freshAfter true = true := by
    induction gap with
    | nil => rfl
    | cons g gap ih => rw [List.map_cons,List.foldl_cons,freshAfter_blank g.isBlank,ih]
  rw [behind,List.foldl_append,List.foldl_cons,hnewline,hgap]

/-- A word on the line that could open the definition stands in the arguments. -/
theorem parenthesised (l : Decoration) {pre xs : List Token} {x : Token} (hline : l.onLine = pre ++ x :: xs)
    (hpre : ∀ y ∈ pre, opensDecorated y = false) (hx : opensDecorated x = true) : Parenthesised (x :: xs) := by
  have hdrop : l.onLine.dropWhile (!opensDecorated ·) = x :: xs := by
    rw [hline,List.dropWhile_append_of_pos fun y hy => by simp [hpre y hy]]
    simp [hx]
  cases h : l.arguments with
  | none =>
    have hplain : opensDecorated x = false := by
      have hmem : x ∈ l.name.tokens ++ (l.remark.map (·.token)).toList := by
        have hmem : x ∈ l.onLine := by simp [hline]
        simpa [onLine,h] using hmem
      rcases List.mem_append.mp hmem with hmem | hmem
      · exact (l.name.naming x hmem).notOpening
      · obtain ⟨c,-,rfl⟩ := Option.map_eq_some_iff.mp (Option.mem_toList.mp hmem)
        simp [opensDecorated,c.isKind]
    rw [hplain] at hx
    cases hx
  | some a =>
    have honLine : l.onLine = (l.name.tokens ++ [a.opening.token]) ++
        (a.inside ++ a.closing.token :: (l.remark.map (·.token)).toList) := by
      simp [onLine,h,Arguments.tokens]
    rw [← hdrop,honLine,List.dropWhile_append_of_pos fun x hx => by simp [not_opensDecorated_opening l x hx]]
    exact (a.parenthesised l.remark).suffix (List.dropWhile_suffix _)

end Decoration

/-- Lines are passed over from the mark of the first one on if they are from behind that mark. -/
theorem Leads.decorations [Resources] {l : Decoration} {ls : List Decoration}
    (h : ∃ p, Loops decoratorStep {} (.before (l.behind ++ (ls.flatMap Decoration.tokens ++ t :: us)) false ds) () p ∧
      Leads region exporting p (.before (t :: us) true (ds ++ (l :: ls).flatMap Decoration.attached))) :
    Leads region exporting (.before ((l :: ls).flatMap Decoration.tokens ++ t :: us) true ds)
      (.before (t :: us) true (ds ++ (l :: ls).flatMap Decoration.attached)) := by
  obtain ⟨p,hloop,hleads⟩ := h
  have hop := l.mark.isOperator
  have hv : (l.mark.token.value == exportName) = false := by
    rw [value_of_is hop]
    decide
  have hfresh : freshAfter true l.mark.token = false := by
    simp [freshAfter,kind_of_is hop,TokenKind.endsStatement,TokenKind.isLogicallyBlank]
  rw [List.flatMap_cons,Decoration.tokens,List.append_assoc,List.cons_append]
  refine Leads.trans (Leads.of_runs (r := do consume .op; decorators) (v := ()) ?_ fun next => ?_) hleads
  · exact Runs.bind (hfresh ▸ Runs.consume (kind_of_is hop) (by simp)) hloop.runs
  · simp only [definitionsAt,hv,hop,Bool.and_false,Bool.and_true,Bool.false_eq_true,if_false,if_true,bind_assoc]

theorem foldl_gather_close (ds : List Decorator) (ts : List Token) :
    (ts.foldl gather (ds, {})).1 ++ [(ts.foldl gather (ds, {})).2.close] = ds ++ gathered ts := by
  rw [foldl_gather,gathered,List.append_assoc]

theorem Loops.decorated {p : List Decorator × OpenDecorator} (ht : opensDecorated t = true) :
    Loops decoratorStep p.2 (.before (t :: us) fresh p.1) () (.before (t :: us) fresh (p.1 ++ [p.2.close])) := by
  refine Loops.done (Runs.bind Runs.current? (Runs.bind (Runs.note _) ?_))
  simp only [ht,if_true]
  exact Runs.bind (addDecorator_runs _) Runs.pure

namespace Decoration

variable {l : Decoration} {x : Token} {xs : List Token}

/-- Behind a line with such a word in its arguments, the loop over decorators has ended. -/
theorem loops_interrupted [Resources] {pre : List Token} (hline : l.onLine = pre ++ x :: xs)
    (hpre : ∀ y ∈ pre, opensDecorated y = false) (hx : opensDecorated x = true) (hus : us ≠ []) :
    ∃ p, Loops decoratorStep {} (.before (l.behind ++ us) false ds) () p ∧
      Leads region exporting p (.before us true (ds ++ l.attached)) := by
  have hattached : l.attached = gathered pre := by
    rw [attached,behind,hline,List.append_assoc,
      List.takeWhile_append_of_pos fun y hy => by simp [hpre y hy]]
    simp [hx]
  have hfresh : pre.foldl freshAfter false = false :=
    foldl_freshAfter_inner fun y hy => l.inner_onLine y (by simp [hline,hy])
  have hbehind : l.behind ++ us =
      pre ++ (x :: (xs ++ l.newline.token :: (l.gap.map (·.token) ++ us))) := by
    simp [behind,hline]
  refine ⟨.before ((x :: xs) ++ l.newline.token :: (l.gap.map (·.token) ++ us)) false (ds ++ l.attached),?_,?_⟩
  · rw [hbehind]
    refine Loops.gather hpre (by simp) ?_
    rw [hfresh,hattached,← foldl_gather_close]
    exact Loops.decorated hx
  · refine Leads.trans ((l.parenthesised hline hpre hx).leads l.newline.isKind l.newline.spelled
      (by simp [hus])) ?_
    have hgap : l.gap.map (·.token) = (l.gap.map (·.toBlank)).map (·.token) := List.map_map.symm
    rw [hgap]
    exact Leads.blanks _ hus

theorem not_opensDecorated_behind (hline : ∀ y ∈ l.onLine, opensDecorated y = false) :
    ∀ y ∈ l.behind, opensDecorated y = false := by
  intro y hy
  rcases List.mem_append.mp hy with hy | hy
  · exact hline y hy
  · exact (not_opensDecorated_of_filler (l.isFiller_fillers y (List.mem_append_right _ hy))).1

theorem loops_whole {b : Unit} {q : Spot} (hline : ∀ y ∈ l.onLine, opensDecorated y = false) (hus : us ≠ [])
    (h : Loops decoratorStep (l.behind.foldl gather (ds, {})).2
      (.before us true (l.behind.foldl gather (ds, {})).1) b q) :
    Loops decoratorStep {} (.before (l.behind ++ us) false ds) b q :=
  Loops.gather (not_opensDecorated_behind hline) hus (l.fresh_behind false ▸ h)

theorem attached_whole (hline : ∀ y ∈ l.onLine, opensDecorated y = false) : l.attached = gathered l.behind := by
  rw [attached,List.takeWhile_eq_self_iff.2 fun y hy => by simp [not_opensDecorated_behind hline y hy]]

/-- From behind the mark of a line, the loop over decorators comes to a place from which definitions are
read as they are from the definition below. -/
theorem lead [Resources] (l : Decoration) (ls : List Decoration) (ht : opensDecorated t = true) :
    ∃ p, Loops decoratorStep {} (.before (l.behind ++ (ls.flatMap tokens ++ t :: us)) false ds) () p ∧
      Leads region exporting p (.before (t :: us) true (ds ++ (l :: ls).flatMap attached)) := by
  induction ls generalizing l ds with
  | nil =>
    rcases exists_first (!opensDecorated ·) l.onLine with hline | ⟨pre,x,xs,hline,hpre,hx⟩
    · have hline : ∀ y ∈ l.onLine, opensDecorated y = false := by simpa using hline
      refine ⟨_,loops_whole hline (by simp) (Loops.decorated ht),?_⟩
      rw [foldl_gather_close,← attached_whole hline]
      simp only [List.flatMap_cons,List.flatMap_nil,List.append_nil]
      exact Leads.refl
    · have hall : ds ++ [l].flatMap attached = ds ++ l.attached := by simp
      rw [hall]
      exact loops_interrupted hline (by simpa using hpre) (by simpa using hx) (by simp)
  | cons m ls ih =>
    have hmark : opensDecorated m.mark.token = false := by
      simp [opensDecorated,kind_of_is m.mark.isOperator]
    have hfresh : freshAfter true m.mark.token = false := by
      simp [freshAfter,kind_of_is m.mark.isOperator,TokenKind.endsStatement,TokenKind.isLogicallyBlank]
    obtain ⟨p,hloop,hleads⟩ := @ih (ds ++ l.attached) m
    rcases exists_first (!opensDecorated ·) l.onLine with hline | ⟨pre,x,xs,hline,hpre,hx⟩
    · have hline : ∀ y ∈ l.onLine, opensDecorated y = false := by simpa using hline
      refine ⟨p,loops_whole hline (by simp) ?_,by simpa using hleads⟩
      rw [attached_whole hline,← foldl_gather_close] at hloop
      refine Loops.next (c := {}) ?_ ?_ hloop
      · rw [List.flatMap_cons,List.append_assoc]
        refine Runs.bind Runs.current? (Runs.bind (Runs.note _) ?_)
        simp only [hmark,m.mark.isOperator,Bool.false_eq_true,if_false,if_true]
        refine Runs.bind (addDecorator_runs _) (Runs.bind (hfresh ▸ Runs.move (by simp)) Runs.pure)
      · simp [Spot.before,tokens]
    · have hall : ds ++ (l :: m :: ls).flatMap attached = ds ++ l.attached ++ (m :: ls).flatMap attached := by
        simp
      rw [hall]
      have hne : (m :: ls).flatMap tokens ++ t :: us ≠ [] := by simp
      obtain ⟨p',hloop',hleads'⟩ := loops_interrupted hline (by simpa using hpre) (by simpa using hx) hne
      exact ⟨p',hloop',hleads'.trans (Leads.decorations ⟨p,hloop,hleads⟩)⟩

end Decoration

structure Keyword where
  async : Option (TokenOf .name)
  word : Token
  isAsync : async.all (fun t => t.token.value == "async".toList) = true
  isWord : (word.is .name "def" || word.is .name "class") = true

def Keyword.tokens (k : Keyword) : List Token := (k.async.map (·.token)).toList ++ [k.word]

theorem Leads.async [Resources] {w : TokenOf .name} (hw : w.token.value = "async".toList) (hus : us ≠ []) :
    Leads region exporting (.before (w.token :: us) fresh ds) (.before us false ds) := by
  have hexport : (w.token.value == exportName) = false := by
    rw [hw]
    decide
  have hop : w.token.is .op "@" = false := is_op_of_kind_ne (by simp [w.isKind])
  rw [← freshAfter_name w.isKind]
  exact Leads.pass hus (by rw [hexport,Bool.and_false]) (by rw [hop,Bool.false_and])
    (by rw [hw]; decide) (by rw [hw]; decide) (by simp [w.isKind])

theorem Leads.decorated [Resources] (ls : List Decoration) (k : Keyword) :
    Leads region exporting (.before (ls.flatMap Decoration.tokens ++ (k.tokens ++ us)) true [])
      (.before (k.word :: us) k.async.isNone (ls.flatMap Decoration.attached)) := by
  have hlines (x : Token) (xs : List Token) (hx : opensDecorated x = true) :
      Leads region exporting (.before (ls.flatMap Decoration.tokens ++ x :: xs) true [])
        (.before (x :: xs) true (ls.flatMap Decoration.attached)) := by
    cases ls with
    | nil => exact Leads.refl
    | cons l ls => exact Leads.decorations (Decoration.lead l ls hx)
  have hword : opensDecorated k.word = true := by
    rcases (Bool.or_eq_true _ _).mp k.isWord with h | h <;>
      simp only [opensDecorated,kind_of_is h,value_of_is h] <;> decide
  unfold Keyword.tokens
  cases hasync : k.async with
  | none => exact hlines k.word us hword
  | some w =>
    have hv : w.token.value = "async".toList := by
      have h := k.isAsync
      rw [hasync] at h
      exact beq_iff_eq.mp h
    have hw : opensDecorated w.token = true := by
      simp only [opensDecorated,w.isKind,hv]
      decide
    exact (hlines w.token (k.word :: us) hw).trans (Leads.async hv (by simp))

theorem definitions_pending [Resources] {s s' : State} {found : List Definition} (hs : s.spot = .before (t :: us) fresh ds)
    (ht : (t.is .name "def" || t.is .name "class") = true)
    (h : definitions region exporting s = .ok found s') :
    ∃ d rest, found = d :: rest ∧ d.decorators = ds := by
  have hv : t.value = "def".toList ∨ t.value = "class".toList := by
    rcases (Bool.or_eq_true _ _).mp ht with ht | ht
    · exact .inl (value_of_is ht)
    · exact .inr (value_of_is ht)
  have hk : t.kind = .name := by
    rcases (Bool.or_eq_true _ _).mp ht with ht | ht <;> exact kind_of_is ht
  have he : (t.value == exportName) = false := by rcases hv with hv | hv <;> rw [hv] <;> decide
  have hop : t.is .op "@" = false := is_op_of_kind_ne (by simp [hk])
  have hstep (next : Region → Bool → Reader (List Definition)) :
      definitionsAt next region exporting s.fresh t = do
        let d ← definitionWith (fun r => next r false) (region.nested (t.value = "class"))
        return d :: (← next region exporting) := by
    rw [definitionsAt,he,Bool.and_false,hop,Bool.false_and,if_neg Bool.false_ne_true,
      if_neg Bool.false_ne_true,if_pos hv]
  obtain ⟨ts,n,hat,hn⟩ := Leads.exists_at hs
  rw [definitions_at hat hn,hstep] at h
  obtain ⟨d,s₁,hd,h⟩ := bind_eq_ok h
  obtain ⟨rest,s₂,-,h⟩ := bind_eq_ok h
  cases h
  have hpending : s.pending = ds := (Spot.mk.inj hs).2.2.2
  refine ⟨d,rest,rfl,definitionWith_pending _ _ ds _ d s₁ ?_ hd⟩
  exact hpending

end Outline

structure Definition.IsSeenBy [Resources] (d : Definition) (names : List Text) : Prop where
  overload : d.isOverload = names.contains "overload".toList
  static : d.isStatic = names.contains "staticmethod".toList
  property : ∀ properties, d.isProperty properties = names.any properties.contains
  accessor : d.isAccessor = Definition.isAccessorBy d.name names
  ignored : ∀ (o : CheckOptions) p m ancestors, o.ignoredDecorators = some p →
    o.skips (.definition m ancestors d) =
      ((!o.ignoreComments && d.skipped == "all".toList) || names.any p.occurs)

theorem Definition.isSeenBy [Resources] {d : Definition} {names : List Text} (h : d.decorators.map (·.name) = names) :
    d.IsSeenBy names := by
  have hany (f : Text → Bool) : (d.decorators.any fun x => f x.name) = names.any f := by
    rw [← h,List.any_map]
    rfl
  have hcontains (name : Text) : d.hasDecorator name = names.contains name := by
    rw [hasDecorator,hany (· == name),List.contains_eq_any_beq]
    exact List.any_congr rfl fun x => Bool.beq_comm
  refine ⟨hcontains _,hcontains _,fun properties => hany _,congrArg _ h,fun o p m ancestors hp => ?_⟩
  simp only [CheckOptions.skips,hp,Subject.definition?,Option.map_some,Option.getD_some,hany p.occurs]
  rfl

namespace Outline

/-- Decorator lines before a definition: reading goes on from its keyword with what is attached for the
lines, and the definition gets just that. One decorator is attached for each line, with its name, exactly
if all lines are kept; then everything that depends on decorators depends on these names. -/
theorem decorations_attached [Resources] (ls : List Decoration) (k : Keyword) (us : List Token) (region : Region)
    (exporting : Bool) (s : State)
    (hs : s.spot = .before (ls.flatMap Decoration.tokens ++ (k.tokens ++ us)) true []) :
    (∃ s₁, s₁.spot = .before (k.word :: us) k.async.isNone (ls.flatMap Decoration.attached) ∧
      definitions region exporting s = definitions region exporting s₁) ∧
    (∀ found s', definitions region exporting s = .ok found s' →
      ∃ d rest, found = d :: rest ∧ d.decorators = ls.flatMap Decoration.attached ∧
        ((∀ l ∈ ls, l.isKept = true) → d.IsSeenBy (ls.map (·.name.text)))) ∧
    ((ls.flatMap Decoration.attached).map (·.name) = ls.map (·.name.text) ↔ ∀ l ∈ ls, l.isKept = true) := by
  have hnames : (ls.flatMap Decoration.attached).map (·.name) = ls.map (·.name.text) ↔
      ∀ l ∈ ls, l.isKept = true := by
    rw [List.map_flatMap,flatMap_eq_map_iff fun l => by simp [l.attached_ne_nil]]
    simp only [Decoration.attached_names_iff]
  obtain ⟨s₁,hs₁,heq⟩ := @Leads.decorated us region exporting _ ls k s hs
  refine ⟨⟨s₁,hs₁,heq⟩,fun found s' h => ?_,hnames⟩
  obtain ⟨d,rest,hfound,hd⟩ := definitions_pending hs₁ k.isWord (heq ▸ h)
  exact ⟨d,rest,hfound,hd,fun hkept => Definition.isSeenBy (hd ▸ hnames.mpr hkept)⟩

def routed : List Decoration :=
  [{ mark := ⟨tokenAt 1 .op "@", by decide⟩
     name :=
      { first := ⟨tokenAt 1 .name "app", rfl, by decide⟩
        others := [(⟨tokenAt 1 .op ".", by decide⟩, ⟨tokenAt 1 .name "route", rfl, by decide⟩)]
        plain := by decide }
     arguments := some
      { opening := parenthesisAtFirst
        inside :=
          [tokenAt 1 .string "'/'", tokenAt 1 .op ",", tokenAt 1 .comment "# path", tokenAt 1 .nl "\n",
            tokenAt 2 .op "(", tokenAt 2 .name "x", tokenAt 2 .op ")"]
        closing := ⟨tokenAt 2 .op ")", by decide⟩
        code := by decide
        plain := by decide }
     remark := some ⟨⟨tokenAt 2 .comment "# first", rfl, by decide⟩, by decide⟩
     newline := ⟨tokenAt 2 .newline "\n", rfl, by decide⟩
     gap := [⟨⟨tokenAt 3 .comment "# second", rfl, by decide⟩, by decide⟩,
      ⟨⟨tokenAt 3 .nl "\n", rfl, by decide⟩, by decide⟩] },
    { mark := ⟨tokenAt 4 .op "@", by decide⟩
      name :=
        { first := ⟨tokenAt 4 .name "overload", rfl, by decide⟩, others := [], plain := by decide }
      arguments := none
      remark := none
      newline := ⟨tokenAt 4 .newline "\n", rfl, by decide⟩
      gap := [] }]

def asyncDef : Keyword where
  async := some ⟨tokenAt 5 .name "async", rfl, by decide⟩
  word := tokenAt 5 .name "def"
  isAsync := by decide
  isWord := by decide

def behindAsyncDef : List Token :=
  [tokenAt 5 .name "f", tokenAt 5 .op ":", tokenAt 5 .name "pass", tokenAt 5 .newline "\n",
    tokenAt 6 .endMarker []]

open Resources.Builtin

theorem decorations_attached_routed : ∃ s found s' d rest,
    State.ofTokens? (routed.flatMap Decoration.tokens ++ (asyncDef.tokens ++ behindAsyncDef)) = some s ∧
    definitions .module true s = .ok found s' ∧ found = d :: rest ∧
    d.decorators.map (·.name) = Text.literals ["app.route", "overload"] ∧ d.isOverload = true ∧
    d.isStatic = false := by
  have hread : readsTo (routed.flatMap Decoration.tokens ++ (asyncDef.tokens ++ behindAsyncDef))
      (definitions .module true) (fun _ _ => true) = true := by decide +kernel
  obtain ⟨s,found,s',hs,hfound,-⟩ := exists_of_readsTo hread
  have hspot : s.spot =
      .before (routed.flatMap Decoration.tokens ++ (asyncDef.tokens ++ behindAsyncDef)) true [] := by
    cases hs
    rfl
  obtain ⟨-,hfirst,hnames⟩ := decorations_attached routed asyncDef behindAsyncDef .module true s hspot
  have hkept : ∀ l ∈ routed, l.isKept = true := by decide
  obtain ⟨d,rest,rfl,hd,hseen⟩ := hfirst found s' hfound
  refine ⟨s,_,s',d,rest,hs,hfound,rfl,?_,?_,?_⟩
  · rw [hd,hnames.mpr hkept]
    decide
  · rw [(hseen hkept).overload]
    decide
  · rw [(hseen hkept).static]
    decide

def remarkedOverload : Text := "@overload  # c\ndef f(): pass\n"

theorem remarkedOverload_renamed : ∃ m d, Module.ofText "a.py" remarkedOverload = .ok m ∧
    d ∈ m.children ∧ d.decorators.map (·.name) = [("overload# c" : Text)] ∧ d.isOverload = false := by
  have hrun : ((Module.ofText "a.py" remarkedOverload).toOption.any fun m => m.children.any fun d =>
      d.decorators.map (·.name) == [("overload# c" : Text)] && !d.isOverload) = true := by
    decide +kernel
  obtain ⟨m,hm,hrun⟩ := exists_of_any hrun
  simp only [List.any_eq_true,Bool.and_eq_true,beq_iff_eq,Bool.not_eq_true'] at hrun
  obtain ⟨d,hd,hnames,hoverload⟩ := hrun
  exact ⟨m,d,hm,hd,hnames,hoverload⟩

end Outline

end DocLint
