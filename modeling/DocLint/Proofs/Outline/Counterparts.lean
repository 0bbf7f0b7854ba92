import DocLint.Proofs.Outline.Abreast
import DocLint.Proofs.Outline.LineOrder

/-!
Definitions and modules with the same in them but for their docstrings. The definitions that two runs abreast
bring home are such: the one string that differs shows in the docstring that is read from it and nowhere else.
-/

set_option autoImplicit false

namespace DocLint

def Definition.bare (d : Definition) : Definition := { d with docstring := none, children := [] }

def Module.bare (m : Module) : Module := { m with source := [], docstring := none, children := [] }

def Subject.bare : Subject → Subject
  | .module m => .module m.bare
  | .definition m ancestors d => .definition m.bare (ancestors.map Definition.bare) d.bare

variable {E : Option Docstring → Option Docstring → Prop} {d d' : Definition} {ds ds' es es' : List Definition}

structure Subject.Matches (E : Option Docstring → Option Docstring → Prop) (s s' : Subject) : Prop where
  bare : s'.bare = s.bare
  docstring : E s.docstring s'.docstring

/-- Definitions whose subjects match one by one, wherever they stand. -/
def Matching (E : Option Docstring → Option Docstring → Prop) (ds ds' : List Definition) : Prop :=
  ∀ m m' ancestors ancestors', Module.bare m' = m.bare →
    ancestors'.map Definition.bare = ancestors.map Definition.bare →
    List.Forall₂ (Subject.Matches E) (childSubjects m ancestors ds) (childSubjects m' ancestors' ds')

namespace Matching

theorem nil : Matching E [] [] := fun _ _ _ _ _ _ => .nil

theorem append (h : Matching E ds ds') (h' : Matching E es es') : Matching E (ds ++ es) (ds' ++ es') := by
  intro m m' ancestors ancestors' hm ha
  rw [childSubjects_append,childSubjects_append]
  exact List.rel_append (h m m' _ _ hm ha) (h' m m' _ _ hm ha)

theorem single (hbare : d'.bare = d.bare) (hdoc : E d.docstring d'.docstring)
    (hchildren : Matching E d.children d'.children) : Matching E [d] [d'] := by
  intro m m' ancestors ancestors' hm ha
  simp only [childSubjects,Definition.subjects_eq,List.append_nil]
  refine .cons ⟨?_,hdoc⟩ (hchildren m m' _ _ hm ?_)
  · rw [Subject.bare,Subject.bare,hm,ha,hbare]
  · rw [List.map_cons,List.map_cons,hbare,ha]

theorem cons (h : Matching E [d] [d']) (h' : Matching E ds ds') : Matching E (d :: ds) (d' :: ds') :=
  h.append h'

mutual

theorem single_refl (hE : ∀ x, E x x) : (d : Definition) → Matching E [d] [d]
  | ⟨_,_,_,_,_,_,_,children⟩ => single rfl (hE _) (refl hE children)

theorem refl (hE : ∀ x, E x x) : (ds : List Definition) → Matching E ds ds
  | [] => nil
  | d :: ds => (single_refl hE d).cons (refl hE ds)

end

end Matching

namespace Outline

variable {t u u' : Token} {v : Text} {nested : Region → Reader (List Definition)}
  {next : Region → Bool → Reader (List Definition)}

theorem Echoes.refl (d : Option Docstring) : Echoes t v d d := .inl rfl

theorem Matching.echoes_refl (ds : List Definition) : Matching (Echoes t v) ds ds := Matching.refl Echoes.refl ds

theorem definitionWith_parallel (ht : Respoken t v) (kind : DefinitionKind)
    (hnested : ∀ r, Parallel t v (Matching (Echoes t v)) (nested r) (nested r)) :
    Parallel t v (fun d d' => Matching (Echoes t v) [d] [d']) (definitionWith nested kind)
      (definitionWith nested kind) := by
  have hdone {name : Text} {d d' : Definition} (hd : Matching (Echoes t v) [d] [d']) :
      Parallel t v (fun d d' => Matching (Echoes t v) [d] [d']) (do
        note (.definitionDone kind name (← current?))
        return d) (do
        note (.definitionDone kind name (← current?))
        return d') := by
    have hnote {next next' : Option Token} : Parallel t v (fun d d' => Matching (Echoes t v) [d] [d'])
        (note (.definitionDone kind name next) >>= fun _ => pure d)
        (note (.definitionDone kind name next') >>= fun _ => pure d') :=
      Parallel.note_bind (by simp) (Parallel.pure hd)
    exact Parallel.current?_bind hnote fun w _ _ => hnote.before w
  unfold definitionWith
  refine Parallel.line_bind fun start => Parallel.consume_bind (Parallel.current_bind fun u u' hu => ?_)
  suffices hrest : ∀ name, Parallel t v (fun d d' => Matching (Echoes t v) [d] [d']) _ _ by
    refine Before.note_bind (by simp) (Before.take (fun hne => ?_) (hrest u.value).spoils)
    rw [hu.eq_of_ne hne]
    exact hrest u.value
  intro name
  refine (headerEnd_parallel ht).seq fun _ => Parallel.looking fun w w' hw => ?_
  rw [hw.kind]
  split
  · refine (skipComment_parallel ht).seq fun skipped => (leapfrog_parallel ht .indent rfl).seq fun _ => ?_
    refine Parallel.looking fun x x' hx => ?_
    rw [hx.kind]
    split
    · exact Parallel.throw_bind _ _
    · refine (docstring_parallel ht).bind Echoes.refl fun doc doc' hdoc => takePending_parallel.seq fun ds => ?_
      refine Parallel.note_bind (by simp) ((hnested _).bind Matching.echoes_refl fun cs cs' hcs => ?_)
      exact Parallel.note_bind (by simp) (Parallel.line_bind fun stop => hdone (Matching.single rfl hdoc hcs))
  · refine (docstring_parallel ht).bind Echoes.refl fun doc doc' hdoc => takePending_parallel.seq fun ds => ?_
    refine Parallel.line_bind fun stop => (leapfrog_parallel ht .newline rfl).seq fun _ => ?_
    exact hdone (Matching.single rfl hdoc Matching.nil)

theorem definitionsAt_parallel [Resources] (ht : Respoken t v)
    (hnext : ∀ r e, Parallel t v (Matching (Echoes t v)) (next r e) (next r e)) (hu : t.Twin v u u')
    (region : Region) (exporting fresh : Bool) :
    Parallel t v (Matching (Echoes t v)) (definitionsAt next region exporting fresh u)
      (definitionsAt next region exporting fresh u') := by
  have hexport : (u'.value == exportName) = (u.value == exportName) := by
    rw [Bool.eq_iff_iff,beq_iff_eq,beq_iff_eq,hu.value_iff ht (by decide)]
  have hdef : u'.value = "def".toList ↔ u.value = "def".toList := hu.value_iff ht (by decide)
  have hclass : u'.value = "class".toList ↔ u.value = "class".toList := hu.value_iff ht (by decide)
  have hfrom : u'.value = "from".toList ↔ u.value = "from".toList := hu.value_iff ht (by decide)
  unfold definitionsAt
  simp only [hexport,hu.is_eq ht .op (show "@".toList.all (!Lexeme.isQuote ·) = true by decide),hdef,hclass,hfrom,
    hu.kind]
  split
  · exact (exportStatement_parallel ht).seq fun _ => hnext region exporting
  · split
    · exact Parallel.consume_bind ((decorators_parallel ht).seq fun _ => hnext region exporting)
    · split
      · refine (definitionWith_parallel ht _ fun r => hnext r false).bind (fun d => Matching.echoes_refl [d])
          fun d d' hd => ?_
        exact (hnext region exporting).bind Matching.echoes_refl fun ds ds' hds => Parallel.pure (hd.cons hds)
      · split
        · refine Parallel.consume_bind ((hnext region false).bind Matching.echoes_refl fun ds ds' hds => ?_)
          exact (hnext region exporting).bind Matching.echoes_refl fun es es' hes => Parallel.pure (hds.append hes)
        · split
          · exact Parallel.consume_bind (Parallel.pure Matching.nil)
          · split
            · exact (fromImport_parallel ht).seq fun _ => hnext region exporting
            · exact Parallel.move_bind (hnext region exporting)

theorem definitionsWithin_parallel [Resources] (ht : Respoken t v) (fuel : Nat) (region : Region)
    (exporting : Bool) : Parallel t v (Matching (Echoes t v)) (definitionsWithin fuel region exporting)
      (definitionsWithin fuel region exporting) := by
  induction fuel generalizing region exporting with
  | zero => exact Parallel.throw _ _
  | succ fuel ih =>
    refine Parallel.current?_bind (Parallel.pure Matching.nil) fun u u' hu => Parallel.before ?_ u
    have hrest (fresh : Bool) : Parallel t v (Matching (Echoes t v))
        (note (.definitions u fresh) >>= fun _ => definitionsAt (definitionsWithin fuel) region exporting fresh u)
        (note (.definitions u' fresh) >>= fun _ => definitionsAt (definitionsWithin fuel) region exporting fresh u') :=
      Parallel.note_bind (by simp) (definitionsAt_parallel ht ih hu region exporting fresh)
    refine Parallel.get_bind (fun s s' hs => ?_) fun s => (hrest s.fresh).spoils
    rw [hs.fresh]
    exact hrest s.fresh

theorem module_parallel [Resources] (ht : Respoken t v) (file : Text) (lines lines' : List Text) :
    Parallel t v (fun m m' => m'.source = lines' ∧
      List.Forall₂ (Subject.Matches (Echoes t v)) m.subjects m'.subjects)
      (Outline.module file lines) (Outline.module file lines') := by
  have hdefinitions : Parallel t v (Matching (Echoes t v)) (definitions .module true) (definitions .module true) := by
    refine Parallel.get_bind (fun s s' hs => ?_) fun s => (definitionsWithin_parallel ht _ _ _).spoils
    rw [hs.rest.length_eq]
    exact definitionsWithin_parallel ht _ _ _
  refine Parallel.note_bind (by simp) (Parallel.line_bind fun start => (skipComment_parallel ht).seq fun skipped => ?_)
  refine (docstring_parallel ht).bind Echoes.refl fun doc doc' hdoc => ?_
  refine hdefinitions.bind Matching.echoes_refl fun ds ds' hds => ?_
  refine Parallel.current?_bind (Parallel.get_bind (fun s s' hs => ?_) fun s => ?_) fun u _ _ =>
    (Parallel.throw_bind _ _).before u
  · refine Parallel.note_bind (by simp) (Parallel.pure ⟨rfl,.cons ⟨?_,hdoc⟩ (hds _ _ [] [] ?_ rfl)⟩)
    · simp only [Subject.bare,Module.bare,hs.line,hs.exports,hs.exportFault,hs.features]
    · simp only [Module.bare,hs.line,hs.exports,hs.exportFault,hs.features]
  · have hnote : Undisturbed t v (note .moduleDone) := Parallel.note (by simp)
    exact hnote.spoils.bind fun _ => Ensures.pure fun _ h => h

end Outline

end DocLint
