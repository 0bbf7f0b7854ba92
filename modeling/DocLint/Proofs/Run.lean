import DocLint.Proofs.Config.Discovery
import DocLint.Proofs.Inspection
import DocLint.Resources.Builtin
import DocLint.Run

/-!
Runs of the command line from end to end. Files are chosen and inspected one by one, and nothing is reported
before the last one has been: a configuration that turns out to be illegal on the way takes all reports away.
-/

set_option autoImplicit false

namespace DocLint

open Lookup

/-! ### Faults on the way -/

def Session.cleared (s : Session) : Session := { s with trail := [] }

namespace Lookup

variable {w : Workspace} {given : Settings} {o : Override} {run : RunOptions} {s s' s₀ : Session}
  {before : List Text} {target : Text}

theorem Begun.cleared (hb : Begun given o run {} s₀) : Begun given o run {} s₀.cleared where
  settled := ⟨hb.settled.settings,hb.settled.override,hb.settled.run⟩
  known := hb.known
  knownNamed := hb.knownNamed
  targets := hb.targets
  trail := ⟨[],rfl⟩
  listed := ⟨hb.listed.origin,hb.listed.standard,hb.listed.codes⟩
  files := hb.files
  folders := hb.folders
  ignoreDecorators := hb.ignoreDecorators
  propertyDecorators := hb.propertyDecorators

theorem chooseTarget_ok [Resources] (hb : Begun given o run {} s₀) (hp : w.files.root.isProper = true)
    (hc : Course w s₀ before s) (h : chooseTarget w target s = .ok () s') :
    (∀ e, ¬ Failed w s₀ target e) ∧ ∃ total, Course w s₀ total s' := by
  obtain ⟨r,s₁,total,files,hg,-,hc',-,-,hq⟩ := chooseTarget_walks hb hc target
  obtain ⟨rfl,rfl⟩ := hg.of_ok h
  refine ⟨fun e hf => ?_,total,hc'⟩
  have hfound := hq hp
  unfold Failed at hf
  cases hfind : w.files.find target with
  | error e' =>
    simp only [Found,hfind] at hfound hf
    obtain ⟨here,hat,-⟩ := hfound
    cases hf.symm.trans hat
  | ok node =>
    cases node with
    | file content =>
      simp only [Found,hfind] at hfound hf
      obtain ⟨here,hat,-⟩ := hfound
      cases hf.symm.trans hat
    | folder inside =>
      simp only [hfind] at hf
      simp only [chooseTarget,hfind] at h
      obtain ⟨r,s₂,total',files',hg',-,-,-,-,hfollows⟩ :=
        enter_walks hb hc fun _ _ _ hc => chooseBelow_walks hb inside hc
      obtain ⟨rfl,rfl⟩ := hg'.of_ok h
      cases hw : inside.walk (sieves w s₀ target) with
      | error e' =>
        rw [hw] at hfollows
        cases hfollows
      | ok list => exact Folder.not_faulty_of_walk (Folder.isProper_find hp hfind) hw hf

theorem chooseAll_ok [Resources] {targets : List Text} (hb : Begun given o run {} s₀)
    (hp : w.files.root.isProper = true) (hc : Course w s₀ before s)
    (h : chooseAll w targets s = .ok () s') : ∀ target ∈ targets, ∀ e, ¬ Failed w s₀ target e := by
  induction targets generalizing before s with
  | nil => simp
  | cons target targets ih =>
    obtain ⟨_,s₁,hfirst,hrest⟩ := exists_of_bind h
    obtain ⟨hnone,total,hc'⟩ := chooseTarget_ok hb hp hc hfirst
    intro t ht
    rcases List.mem_cons.1 ht with rfl | ht
    · exact hnone
    · exact ih hc' hrest t ht

theorem chooseFiles_ok [Resources] {targets : List Text} (hb : Begun given o run {} s₀)
    (hp : w.files.root.isProper = true) (ht : s₀.targets = some targets)
    (h : chooseFiles w s₀ = .ok () s') : ∀ target ∈ targets, ∀ e, ¬ Failed w s₀ target e := by
  have heq : chooseFiles w s₀ = chooseAll w targets s₀ := by
    refine (bind_ok rfl).trans ?_
    simp only [hb.settled.settings,ht]
  exact chooseAll_ok hb hp .start (heq.symm.trans h)

end Lookup

namespace Run

open Inspection (Checked Troubled)

variable {w : Workspace} {searchPath : List Path} {words : List Text}

/-! ### Results of files -/

/-- What a chosen file adds to the results: the violations whose codes are asked for, or one trouble. -/
inductive Yields [Resources] (w : Workspace) (searchPath : List Path) (x : Selected) : List InspectionItem → Prop where
  | checked {violations : List Violation}
    (h : Checked w.files (optionsOf searchPath x) x.location violations) :
    Yields w searchPath x ((violations.filter fun v => x.codes.contains v.code).map .violation)
  | troubled {trouble : FileTrouble} (h : Troubled w.files x.location trouble) :
    Yields w searchPath x [.trouble trouble]

theorem ofFile_yields [Resources] {x : Selected}
    (h : (Inspection.ofFile w.files (optionsOf searchPath x) x.codes x.location).fault = none) :
    Yields w searchPath x
      (Inspection.ofFile w.files (optionsOf searchPath x) x.codes x.location).items := by
  rcases Inspection.troubled_or_checked_or_breaking w.files (optionsOf searchPath x) x.location with
    ⟨trouble,ht⟩ | ⟨violations,hc⟩ | ⟨fault,hb⟩
  · rw [(Inspection.ofFile_of_troubled ht).1]
    exact .troubled ht
  · rw [(Inspection.ofFile_of_checked hc).1]
    exact .checked hc
  · rw [Inspection.ofFile_of_breaking hb] at h
    cases h

/-- An inspection that is not broken off has the results of all chosen files, in their order. -/
theorem inspect_yields [Resources] {trail : List Event} (h : (inspect w searchPath trail).fault = none) :
    ∃ results, List.Forall₂ (Yields w searchPath) (trail.filterMap Event.selected?) results ∧
      (inspect w searchPath trail).items = results.flatten := by
  induction trail with
  | nil => exact ⟨[],.nil,rfl⟩
  | cons event trail ih =>
    cases event with
    | log line =>
      have heq : inspect w searchPath (.log line :: trail) =
          { log := [line] } ++ inspect w searchPath trail := rfl
      rw [heq,Inspection.append_of_none rfl] at h ⊢
      exact ih h
    | file x =>
      have heq : inspect w searchPath (.file x :: trail) =
          Inspection.ofFile w.files (optionsOf searchPath x) x.codes x.location ++
            inspect w searchPath trail := rfl
      rw [heq] at h ⊢
      cases hx : (Inspection.ofFile w.files (optionsOf searchPath x) x.codes x.location).fault with
      | some fault =>
        rw [Inspection.append_of_fault hx,hx] at h
        cases h
      | none =>
        rw [Inspection.append_of_none hx] at h ⊢
        obtain ⟨results,hr,hitems⟩ := ih h
        exact ⟨_ :: results,.cons (ofFile_yields hx) hr,congrArg _ hitems⟩

/-! ### Reports -/

def violation? : InspectionItem → Option Violation
  | .violation v => some v
  | .trouble _ => none

def trouble? : InspectionItem → Option FileTrouble
  | .violation _ => none
  | .trouble t => some t

theorem length_items (items : List InspectionItem) :
    items.length = (items.filterMap violation?).length + (items.filterMap trouble?).length := by
  induction items with
  | nil => rfl
  | cons item items ih =>
    cases item with
    | violation v =>
      simp only [List.filterMap_cons,violation?,trouble?,List.length_cons]
      omega
    | trouble t =>
      simp only [List.filterMap_cons,violation?,trouble?,List.length_cons]
      omega

def styleOf (o : RunOptions) : ReportStyle := { explain := o.explain, source := o.source }

def Told [Resources] (style : ReportStyle) (items : List InspectionItem) (text : Text) : Prop :=
  ∃ texts, List.Forall₂ (fun v t => v.report style = .ok t) (items.filterMap violation?) texts ∧
    text = texts.flatMap (· ++ "\n".toList)

theorem reports_told [Resources] {style : ReportStyle} {items : List InspectionItem} {text : Text}
    (h : reports style items = (text,none)) : Told style items text := by
  induction items generalizing text with
  | nil =>
    cases h
    exact ⟨[],.nil,rfl⟩
  | cons item items ih =>
    cases item with
    | trouble t => exact ih h
    | violation v =>
      cases hv : v.report style with
      | error e => simp [reports,hv] at h
      | ok t =>
        cases hmore : reports style items with
        | mk more fault =>
          simp only [reports,hv,hmore,Prod.mk.injEq] at h
          obtain ⟨rfl,rfl⟩ := h
          obtain ⟨texts,htexts,rfl⟩ := ih hmore
          exact ⟨t :: texts,.cons hv htexts,rfl⟩

def tally (o : RunOptions) (items : List InspectionItem) : Text :=
  if o.count then
    Text.ofNat ((items.filterMap violation?).length + (items.filterMap trouble?).length) ++ "\n".toList
  else []

theorem conclude_exit [Resources] {o : RunOptions} {out err : Text} {items : List InspectionItem} {status : Nat}
    (h : (conclude o out err items).ending = .exit status) :
    (∃ text, Told (styleOf o) items text ∧ (conclude o out err items).out = out ++ text ++ tally o items) ∧
      status = if items = [] then 0 else 1 := by
  unfold conclude at h ⊢
  cases hr : reports { explain := o.explain, source := o.source } items with
  | mk text fault =>
    simp only [hr] at h ⊢
    cases fault with
    | some e => cases h
    | none =>
      simp only [RunEnd.exit.injEq] at h ⊢
      refine ⟨⟨text,reports_told hr,?_⟩,?_⟩
      · rw [tally,← length_items]
      · rw [← h,Run.status]
        cases items <;> simp

/-! ### Ends of runs -/

def Refused (words : List Text) : Prop :=
  ∃ fault s, Session.start words {} = .error fault s ∧
    ((∃ f, fault = .early (.misuse f)) ∨ ∃ message, fault = .config (.illegal message))

/-- A configuration is illegal that is met on the walks for a command line. -/
def MeetsIllegal [Resources] (w : Workspace) (words : List Text) : Prop :=
  ∃ o s targets target message, Session.start words {} = .ok o s ∧ s.targets = some targets ∧
    target ∈ targets ∧ Failed w s.cleared target (.illegal message)

def inspected [Resources] (w : Workspace) (searchPath : List Path) (s : Session) : Inspection :=
  inspect w searchPath (.log { level := .debug, text := "starting in debug mode." } :: s.trail)

theorem outOf_quiet {o : RunOptions} (hv : o.verbose = false) (hd : o.debug = false) (log : List LogLine) :
    outOf o log = [] := by
  unfold outOf
  refine List.flatMap_eq_nil_iff.2 fun line _ => ?_
  have hshown : isShown o line.level = false := by
    unfold isShown
    cases line.level <;> simp [hv,hd]
  simp [hshown]

/-- A run that is cut short by an illegal configuration prints what it tells of itself, and no report. -/
def CutShort [Resources] (w : Workspace) (searchPath : List Path) (words : List Text) (out : Text) : Prop :=
  ∃ o s options s' message, Session.start words {} = .ok o s ∧ s.run = some options ∧
    chooseFiles w s.cleared = .error (.illegal message) s' ∧
    out = outOf options (inspected w searchPath s').log ∧
    (options.verbose = false → options.debug = false → out = [])

/-- A run goes to its end: the files of all targets are chosen in the order of the walks and each of them has
its results, and the violations among these are printed in their order. -/
def Completed [Resources] (w : Workspace) (searchPath : List Path) (words : List Text) (status : Nat) (out : Text) :
    Prop :=
  ∃ o s options targets total s' groups results text, Session.start words {} = .ok o s ∧
    s.run = some options ∧ s.targets = some targets ∧ chooseFiles w s.cleared = .ok () s' ∧
    s'.chosen = groups.flatten ∧ List.Forall₂ (Found w s.cleared total) targets groups ∧
    List.Forall₂ (Yields w searchPath) s'.chosen results ∧ Told (styleOf options) results.flatten text ∧
    out = outOf options (inspected w searchPath s').log ++ text ++ tally options results.flatten ∧
    ((∀ items ∈ results, items = []) ∧ status = 0 ∨ (∃ items ∈ results, items ≠ []) ∧ status = 1)

def Answered (words : List Text) (status : Nat) (out : Text) : Prop :=
  status = 0 ∧ ∃ s, (Session.start words {} = .error (.early .help) s ∧ out = Help.text) ∨
    (Session.start words {} = .error (.early .version) s ∧ out = version ++ "\n".toList)

section Options

variable {o : RunOptions} {s s' : Session} {err : Text}

theorem withOptions_broken [Resources] {r : Except ConfigFault Unit} {fault : InspectionFault}
    (hr : Gives (chooseFiles w) s.cleared r s') (h : (inspected w searchPath s').fault = some fault) :
    (withOptions w searchPath o err s).ending = .broken (.inspection fault) := by
  unfold inspected at h
  cases r with
  | ok _ =>
    have hrun : (chooseFiles w).run { s with trail := [] } = .ok () s' := hr
    simp only [withOptions,hrun,h]
  | error e =>
    have hrun : (chooseFiles w).run { s with trail := [] } = .error e s' := hr
    simp only [withOptions,hrun,h]

theorem withOptions_fault [Resources] {e : ConfigFault} (hr : chooseFiles w s.cleared = .error e s')
    (h : (inspected w searchPath s').fault = none) :
    (withOptions w searchPath o err s).out = outOf o (inspected w searchPath s').log ∧
      (withOptions w searchPath o err s).ending = match e with
        | .illegal _ => .exit 2
        | e => .broken (.config e) := by
  have hrun : (chooseFiles w).run { s with trail := [] } = .error e s' := hr
  unfold inspected at h ⊢
  simp only [withOptions,hrun,h]
  cases e <;> exact ⟨rfl,rfl⟩

theorem withOptions_ok [Resources] (hr : chooseFiles w s.cleared = .ok () s')
    (h : (inspected w searchPath s').fault = none) : ∃ err', withOptions w searchPath o err s =
      conclude o (outOf o (inspected w searchPath s').log) err' (inspected w searchPath s').items := by
  have hrun : (chooseFiles w).run { s with trail := [] } = .ok () s' := hr
  unfold inspected at h ⊢
  simp only [withOptions,hrun,h]
  exact ⟨_,rfl⟩

end Options

/-- With an accepted command line, a run is cut short if it meets an illegal configuration, and goes to its
end otherwise. -/
theorem withOptions_exit [Resources] {o : Override} {s : Session} {err : Text} {status : Nat}
    (hp : w.files.root.isProper = true) (hstart : Session.start words {} = .ok o s)
    (h : (withOptions w searchPath (s.run.getD {}) err s).ending = .exit status) :
    (status = 2 ∧ MeetsIllegal w words ∧
      CutShort w searchPath words (withOptions w searchPath (s.run.getD {}) err s).out) ∨
    (status ≠ 2 ∧ ¬ MeetsIllegal w words ∧
      Completed w searchPath words status (withOptions w searchPath (s.run.getD {}) err s).out) := by
  obtain ⟨given,options,hb⟩ := start_ok hstart
  have hrun : s.run = some options := hb.settled.run
  rw [hrun,Option.getD_some] at h ⊢
  obtain ⟨targets,r,s',total,ht,hg,-,-,htreated⟩ := chooseFiles_walks (w := w) hb.cleared
  have hfault : (inspected w searchPath s').fault = none := by
    cases hf : (inspected w searchPath s').fault with
    | none => rfl
    | some fault =>
      rw [withOptions_broken hg hf] at h
      cases h
  have hresult := htreated hp
  cases r with
  | error e =>
    have hchosen : chooseFiles w s.cleared = .error e s' := hg
    obtain ⟨hout,hending⟩ := @withOptions_fault w searchPath options s s' err _ e hchosen hfault
    rw [hending] at h
    cases e with
    | illegal message =>
      cases h
      obtain ⟨target,htarget,hfailed⟩ := hresult
      refine .inl ⟨rfl,⟨o,s,targets,target,message,hstart,ht,htarget,hfailed⟩,?_⟩
      refine ⟨o,s,options,s',message,hstart,hrun,hchosen,hout,fun hv hd => ?_⟩
      rw [hout,outOf_quiet hv hd]
    | _ => cases h
  | ok _ =>
    have hchosen : chooseFiles w s.cleared = .ok () s' := hg
    obtain ⟨groups,hgroups,hfound⟩ := hresult
    obtain ⟨err',heq⟩ := @withOptions_ok w searchPath options s s' err _ hchosen hfault
    obtain ⟨results,hresults,hitems⟩ := inspect_yields hfault
    have hitems' : (inspected w searchPath s').items = results.flatten := hitems
    rw [heq,hitems'] at h ⊢
    obtain ⟨⟨text,htold,hout⟩,hstatus⟩ := conclude_exit h
    refine .inr ⟨?_,?_,o,s,options,targets,total,s',groups,results,text,hstart,hrun,ht,hchosen,hgroups,
      hfound,hresults,htold,hout,?_⟩
    · rw [hstatus]
      split <;> decide
    · rintro ⟨o',s'',targets',target,message,hstart',ht',htarget,hfailed⟩
      cases hstart.symm.trans hstart'
      cases ht.symm.trans ht'
      exact chooseFiles_ok hb.cleared hp ht hchosen target htarget _ hfailed
    · by_cases hnone : results.flatten = []
      · rw [if_pos hnone] at hstatus
        exact .inl ⟨List.flatten_eq_nil_iff.1 hnone,hstatus⟩
      · rw [if_neg hnone] at hstatus
        refine .inr ⟨?_,hstatus⟩
        rw [List.flatten_eq_nil_iff] at hnone
        simpa using hnone

end Run

/-- A run that is not broken off ends with status two exactly if the command line is refused or a
configuration is illegal that it meets, and then it prints no report. If it goes to its end, it prints the
violations of all chosen files in their order, and its status is zero exactly if no file has a violation or a
trouble. -/
theorem run_all_or_nothing [Resources] (w : Workspace) (searchPath : List Path) (words : List Text) (status : Nat)
    (hp : w.files.root.isProper = true) (hend : (run w searchPath words).ending = .exit status) :
    (status = 2 ↔ Run.Refused words ∨ Run.MeetsIllegal w words) ∧
    (status = 2 → (run w searchPath words).out = [] ∨
      Run.CutShort w searchPath words (run w searchPath words).out) ∧
    (status ≠ 2 → Run.Answered words status (run w searchPath words).out ∨
      Run.Completed w searchPath words status (run w searchPath words).out) := by
  have hnotMet {fault : StartFault} {s : Session} (hstart : Session.start words {} = .error fault s) :
      ¬ Run.MeetsIllegal w words := by
    rintro ⟨o,s',targets,target,message,hstart',-⟩
    cases hstart.symm.trans hstart'
  have hrefused {fault : StartFault} {s : Session} (hstart : Session.start words {} = .error fault s)
      (h : Run.Refused words) : (∃ f, fault = .early (.misuse f)) ∨
        ∃ message, fault = .config (.illegal message) := by
    obtain ⟨fault',s',hstart',hfault⟩ := h
    cases hstart.symm.trans hstart'
    exact hfault
  cases hstart : Session.start words {} with
  | ok o s =>
    have hrun : run w searchPath words =
        Run.withOptions w searchPath (s.run.getD {}) (Run.errOf (Run.logOf s.trail)) s := by
      have hstarted : (Session.start words).run {} = .ok o s := hstart
      simp only [run,hstarted]
    have haccepted : ¬ Run.Refused words := by
      rintro ⟨fault,s',hstart',-⟩
      cases hstart.symm.trans hstart'
    rw [hrun] at hend ⊢
    rcases Run.withOptions_exit hp hstart hend with ⟨htwo,hmet,hcut⟩ | ⟨htwo,hmet,hcompleted⟩
    · exact ⟨iff_of_true htwo (.inr hmet),fun _ => .inr hcut,fun hne => absurd htwo hne⟩
    · exact ⟨iff_of_false htwo (by tauto),fun h => absurd h htwo,fun _ => .inr hcompleted⟩
  | error fault s =>
    have hmet := hnotMet hstart
    have hstarted : (Session.start words).run {} = .error fault s := hstart
    simp only [run,hstarted] at hend ⊢
    cases fault with
    | early ending =>
      cases ending with
      | help =>
        cases hend
        refine ⟨iff_of_false (by decide) ?_,nofun,fun _ => .inl ⟨rfl,s,.inl ⟨hstart,rfl⟩⟩⟩
        rintro (hr | hm)
        · simpa using hrefused hstart hr
        · exact hmet hm
      | version =>
        cases hend
        refine ⟨iff_of_false (by decide) ?_,nofun,fun _ => .inl ⟨rfl,s,.inr ⟨hstart,rfl⟩⟩⟩
        rintro (hr | hm)
        · simpa using hrefused hstart hr
        · exact hmet hm
      | misuse f =>
        cases hend
        exact ⟨iff_of_true rfl (.inl ⟨_,s,hstart,.inl ⟨f,rfl⟩⟩),fun _ => .inl rfl,nofun⟩
    | config e =>
      cases e with
      | illegal message =>
        cases hend
        exact ⟨iff_of_true rfl (.inl ⟨_,s,hstart,.inr ⟨message,rfl⟩⟩),fun _ => .inl rfl,nofun⟩
      | _ => cases hend

/-- A folder with a file that lacks a docstring, and one with an illegal configuration. -/
def halfIllegal : Workspace where
  files :=
    { root := .folder "a" (.file "x.py" [] .empty) (.folder "b" (.file "setup.cfg"
        ("[pydocstyle]\nselect=D100\nignore=D101\n".toList.map fun c => c.toNat.toUInt8) .empty) .empty)
      working := [] }

open Resources.Builtin

/-- The violation in the first folder is not reported if the second folder is walked through too. -/
theorem run_all_or_nothing_halfIllegal : halfIllegal.files.root.isProper = true ∧
    (run halfIllegal [] ["a", "b"]).ending = .exit 2 ∧ Run.MeetsIllegal halfIllegal ["a", "b"] ∧
    (run halfIllegal [] ["a", "b"]).out = [] ∧
    (run halfIllegal [] ["--count", "a"]).ending = .exit 1 ∧
    Run.Completed halfIllegal [] ["--count", "a"] 1
      ("a/x.py:1 at module level:\n        D100: Missing docstring in public module\n1\n".toList) := by
  have hp : halfIllegal.files.root.isProper = true := by decide +kernel
  have hcut : (run halfIllegal [] ["a", "b"]).ending = .exit 2 ∧
      (run halfIllegal [] ["a", "b"]).out = [] := by decide +kernel
  have hall : (run halfIllegal [] ["--count", "a"]).ending = .exit 1 ∧
      (run halfIllegal [] ["--count", "a"]).out =
        "a/x.py:1 at module level:\n        D100: Missing docstring in public module\n1\n".toList := by
    decide +kernel
  obtain ⟨o,s,hstart,-⟩ := @exists_of_opens ["a", "b"] (fun _ => true) (by decide +kernel)
  refine ⟨hp,hcut.1,?_,hcut.2,hall.1,?_⟩
  · rcases (run_all_or_nothing halfIllegal [] ["a", "b"] 2 hp hcut.1).1.1 rfl with ⟨f,s₁,hf,-⟩ | hmet
    · cases hstart.symm.trans hf
    · exact hmet
  · rcases (run_all_or_nothing halfIllegal [] ["--count", "a"] 1 hp hall.1).2.2 (by decide) with
      ⟨hzero,-⟩ | hcompleted
    · cases hzero
    · rwa [hall.2] at hcompleted

end DocLint
