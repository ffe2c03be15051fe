import SuiteAtlas.Command.Perform
import SuiteAtlas.Proofs.Session.History

namespace SuiteAtlas

open Session (refresh_isOk_iff)

namespace Session

variable {s s' : Session} {files files' : Files} {path other : Path} {found : Option Key}

theorem IsAsNew.refresh (h : s.IsAsNew files path) (hhist : History files s)
    (hpath : path.IsProper) (hother : other.IsProper)
    (hok : s.refresh files other = .ok (found, s')) : s'.IsAsNew files path := by
  have hfull := hhist.isFull_resolve hpath
  have hfull' := hhist.isFull_resolve hother
  have hnew := hhist.isRefreshed hother hok
  rw [isAsNew_iff hfull] at h ⊢
  refine ⟨h.1, ?_⟩
  -- the two may be written differently, so their full paths are compared
  by_cases he : Path.resolve files.current other = Path.resolve files.current path
  · rw [← he]
    exact hnew.rootsNamed
  · have hne : (Path.resolve files.current path).toString ≠
        (Path.resolve files.current other).toString :=
      fun hid => he (hfull.toString_inj hfull' hid).symm
    rw [Hierarchy.rootsNamed_eq_of_otherRoots hnew.otherRoots hne]
    exact h.2

theorem IsAsNew.congr (h : s.IsAsNew files path) (hfull : (Path.resolve files.current path).IsFull)
    (hcurrent : files'.current = files.current)
    (hfind : files'.find? (Path.resolve files.current path) =
      files.find? (Path.resolve files.current path)) : s.IsAsNew files' path := by
  have htext : files'.text? (Path.resolve files.current path) =
      files.text? (Path.resolve files.current path) := by
    rw [Files.text?, Files.text?, Files.content?, Files.content?, hfind]
  rw [isAsNew_iff hfull] at h
  rw [isAsNew_iff (hcurrent ▸ hfull), Files.LooksUp, Files.treesAt, hcurrent, hfind, htext]
  exact h

end Session

namespace Arrival

def IsProper (arrival : Arrival) : Prop :=
  ∀ entry ∈ arrival.written, entry.1.IsProper

def filesAfter (files : Files) (arrivals : List Arrival) : Files :=
  arrivals.foldl (fun files arrival => arrival.applyTo files) files

theorem filesAfter_append (files : Files) (before after : List Arrival) :
    filesAfter files (before ++ after) = filesAfter (filesAfter files before) after :=
  List.foldl_append

theorem applyTo_preserves {arrival : Arrival} {files : Files} {motive : Files → Prop}
    (hadd : ∀ files, motive files → ∀ entry ∈ arrival.written, motive (files.add entry.1 entry.2))
    (hdelete : ∀ files, motive files → ∀ path ∈ arrival.deleted, motive (files.delete path))
    (h : motive files) : motive (arrival.applyTo files) :=
  List.foldlRecOn _ _ (List.foldlRecOn _ _ h hadd) hdelete

theorem applyTo_current (arrival : Arrival) (files : Files) :
    (arrival.applyTo files).current = files.current :=
  applyTo_preserves (motive := fun changed => changed.current = files.current)
    (fun _ h _ _ => h) (fun _ h _ _ => h) rfl

end Arrival

theorem History.applyTo {files : Files} {s : Session} {arrival : Arrival} (h : History files s)
    (ha : arrival.IsProper) : History (arrival.applyTo files) s :=
  Arrival.applyTo_preserves (motive := fun files => History files s)
    (fun _ h entry hentry => h.add entry.2 (ha entry hentry)) (fun _ h path _ => h.delete path) h

namespace Action

variable {files : Files} {s s' : Session} {path : Path} {paths before after : List Path}
  {t : Transcript} {found : Option Key}

theorem print_run (markup : String) (t : Transcript) :
    (∃ lines t', markupLines markup = .ok lines ∧ (print markup).run t = (.ok (), t')) ∨
      ∃ error, markupLines markup = .error error ∧
        (print markup).run t = (.error (.failure (.markup error)), t) := by
  rw [print, printLines]
  cases markupLines markup with
  | error error => exact .inr ⟨error, rfl, rfl⟩
  | ok lines => exact .inl ⟨lines, _, rfl, rfl⟩

theorem showChanges_of_error {error : FileError} {rest : List Path}
    (h : s.refresh files path = .error error) :
    (showChanges files s (path :: rest)).run t = (s, t) := by
  rw [showChanges, h]
  rfl

theorem showChanges_of_ok {rest : List Path} (h : s.refresh files path = .ok (found, s')) :
    (showChanges files s (path :: rest)).run t =
      match (print (changeText s' path found)).run t with
      | (.ok (), t') => (showChanges files s' rest).run t'
      | (.error _, t') => (s', t') := by
  rw [showChanges, h]
  dsimp only
  rw [StateT.run_bind]
  cases hrun : (print (changeText s' path found)).run t with
  | mk outcome t' =>
    change StateT.run (ExceptT.run (print (changeText s' path found))) t = _ at hrun
    rw [hrun]
    cases outcome <;> rfl

/-- Every file of a row is read anew, and told about. -/
def GetsThrough (files : Files) (s : Session) : List Path → Prop
  | [] => True
  | path :: rest => ∃ found s', s.refresh files path = .ok (found, s') ∧
    (∃ lines, markupLines (changeText s' path found) = .ok lines) ∧ GetsThrough files s' rest

theorem showChanges_preserves {motive : Session → Prop}
    (hstep : ∀ path ∈ paths, ∀ s found s', motive s → s.refresh files path = .ok (found, s') →
      motive s') (h : motive s) : motive ((showChanges files s paths).run t).1 := by
  induction paths generalizing s t with
  | nil => exact h
  | cons path rest ih =>
    rw [List.forall_mem_cons] at hstep
    cases hok : s.refresh files path with
    | error error => rwa [showChanges_of_error hok]
    | ok result =>
      obtain ⟨found, s'⟩ := result
      have h' := hstep.1 s found s' h hok
      rw [showChanges_of_ok hok]
      rcases print_run (changeText s' path found) t with ⟨_, t', _, he⟩ | ⟨_, _, he⟩
      · rw [he]
        exact ih hstep.2 h'
      · rwa [he]

theorem showChanges_history (h : History files s) (hpaths : ∀ p ∈ paths, p.IsProper) :
    History files ((showChanges files s paths).run t).1 :=
  showChanges_preserves (fun p hp _ _ _ h hok => h.refresh (hpaths p hp) hok) h

theorem showChanges_isAsNew (h : History files s) (hpath : path.IsProper)
    (hnew : s.IsAsNew files path) (hpaths : ∀ p ∈ paths, p.IsProper) :
    ((showChanges files s paths).run t).1.IsAsNew files path :=
  (showChanges_preserves (motive := fun s => History files s ∧ s.IsAsNew files path)
    (fun p hp _ _ _ h hok => ⟨h.1.refresh (hpaths p hp) hok,
      h.2.refresh h.1 hpath (hpaths p hp) hok⟩) ⟨h, hnew⟩).2

theorem showChanges_isAsNew_of_mem (h : History files s) (hpaths : ∀ p ∈ paths, p.IsProper)
    (hmem : path ∈ paths) (hlook : files.LooksUp path)
    (hbefore : GetsThrough files s (paths.takeWhile (· != path))) :
    ((showChanges files s paths).run t).1.IsAsNew files path := by
  induction paths generalizing s t with
  | nil => exact absurd hmem List.not_mem_nil
  | cons other rest ih =>
    rw [List.forall_mem_cons] at hpaths
    by_cases hother : other = path
    · subst hother
      obtain ⟨⟨found, s'⟩, hok⟩ := refresh_isOk_iff.2 hlook
      have hnew' := h.isAsNew_refresh hpaths.1 hok
      rw [showChanges_of_ok hok]
      rcases print_run (changeText s' other found) t with ⟨_, t', _, he⟩ | ⟨_, _, he⟩
      · rw [he]
        exact showChanges_isAsNew (h.refresh hpaths.1 hok) hpaths.1 hnew' hpaths.2
      · rwa [he]
    · rw [List.takeWhile_cons, if_pos (bne_iff_ne.2 hother)] at hbefore
      obtain ⟨found, s', hok, ⟨lines, hlines⟩, hrest⟩ := hbefore
      rw [showChanges_of_ok hok]
      rcases print_run (changeText s' other found) t with ⟨_, t', _, he⟩ | ⟨_, herror, _⟩
      · rw [he]
        exact ih (h.refresh hpaths.1 hok) hpaths.2
          ((List.mem_cons.1 hmem).resolve_left (Ne.symm hother)) hrest
      · rw [hlines] at herror
        cases herror

theorem showArrivals_cons (files : Files) (s : Session) (a : Arrival) (rest : List Arrival)
    (t : Transcript) :
    (showArrivals files s (a :: rest)).run t =
      (showArrivals (a.applyTo files)
        ((showChanges (a.applyTo files) s (changedSources a.changes)).run t).1 rest).run
        ((showChanges (a.applyTo files) s (changedSources a.changes)).run t).2 :=
  rfl

theorem isProper_of_mem_changedSources {batch : Batch} (h : path ∈ changedSources batch) :
    path.IsProper := by
  rw [changedSources, Path.sort, List.mem_mergeSort, List.mem_eraseDups, List.mem_filter] at h
  obtain ⟨change, _, rfl⟩ := List.mem_map.1 h.1
  exact Path.isProper_ofString _

theorem showChanges_history_applyTo {a : Arrival} (h : History files s) (ha : a.IsProper) :
    History (a.applyTo files)
      ((showChanges (a.applyTo files) s (changedSources a.changes)).run t).1 :=
  showChanges_history (h.applyTo ha) fun _ hp => isProper_of_mem_changedSources hp

theorem showArrivals_history {arrivals : List Arrival} (h : History files s)
    (ha : ∀ a ∈ arrivals, a.IsProper) :
    History (Arrival.filesAfter files arrivals) ((showArrivals files s arrivals).run t).1 := by
  induction arrivals generalizing files s t with
  | nil => exact h
  | cons a rest ih =>
    rw [List.forall_mem_cons] at ha
    rw [showArrivals_cons]
    exact ih (showChanges_history_applyTo h ha.1) ha.2

theorem showArrivals_append (files : Files) (s : Session) (before after : List Arrival)
    (t : Transcript) :
    (showArrivals files s (before ++ after)).run t =
      (showArrivals (Arrival.filesAfter files before)
        ((showArrivals files s before).run t).1 after).run
        ((showArrivals files s before).run t).2 := by
  induction before generalizing files s t with
  | nil => rfl
  | cons a rest ih =>
    rw [List.cons_append, showArrivals_cons, ih]
    rfl

theorem showArrivals_isAsNew {arrivals : List Arrival} (h : History files s)
    (hpath : path.IsProper) (ha : ∀ a ∈ arrivals, a.IsProper) (hnew : s.IsAsNew files path)
    (hsame : ∀ done rest, arrivals = done ++ rest →
      (Arrival.filesAfter files done).find? (Path.resolve files.current path) =
        files.find? (Path.resolve files.current path)) :
    ((showArrivals files s arrivals).run t).1.IsAsNew (Arrival.filesAfter files arrivals) path := by
  induction arrivals generalizing files s t with
  | nil => exact hnew
  | cons a rest ih =>
    rw [List.forall_mem_cons] at ha
    have hcurrent := a.applyTo_current files
    have hfirst := hsame [a] rest rfl
    have hkept := hnew.congr (h.isFull_resolve hpath) hcurrent hfirst
    rw [showArrivals_cons]
    apply ih (showChanges_history_applyTo h ha.1) ha.2
    · exact showChanges_isAsNew (h.applyTo ha.1) hpath hkept fun _ hp =>
        isProper_of_mem_changedSources hp
    · intro done after he
      rw [hcurrent]
      exact (hsame (a :: done) after (congrArg (a :: ·) he)).trans hfirst.symm

end Action

open SuiteAtlas.Action (GetsThrough showArrivals)

/-- Whatever has happened before, reading a file anew gives it the root of what it is now, which is
returned, as an empty session would have it, and leaves the other roots as they are; only a path
that cannot be looked up gives an error. Watched files come out like this, too: a file that does not
change after a batch that names it, if the ones before it in that batch are got through. -/
theorem History.refresh_isAsNew {files : Files} {s : Session} (h : History files s) :
    (∀ path : Path, path.IsProper →
      let resolved := Path.resolve files.current path
      (files.LooksUp path → ∃ found s', s.refresh files path = .ok (found, s') ∧
        found = s'.hierarchy.root? resolved.toString ∧
        (found.isSome ↔ ∃ text, files.text? resolved = some text ∧
          Source.headings (Source.scan text) ≠ []) ∧
        s'.IsAsNew files path ∧
        s'.hierarchy.otherRoots resolved.toString =
          s.hierarchy.otherRoots resolved.toString) ∧
      (¬ files.LooksUp path → ∃ error, s.refresh files path = .error error)) ∧
    ∀ (before : List Arrival) (arrival : Arrival) (after : List Arrival) (path : Path)
      (t : Transcript), (∀ a ∈ before ++ arrival :: after, a.IsProper) →
      path ∈ changedSources arrival.changes →
      let earlier := ((showArrivals files s before).run t).1
      let now := Arrival.filesAfter files (before ++ [arrival])
      now.LooksUp path →
      GetsThrough now earlier ((changedSources arrival.changes).takeWhile (· != path)) →
      (∀ done rest, after = done ++ rest →
        (Arrival.filesAfter now done).find? (Path.resolve now.current path) =
          now.find? (Path.resolve now.current path)) →
      ((showArrivals files s (before ++ arrival :: after)).run t).1.IsAsNew
        (Arrival.filesAfter files (before ++ arrival :: after)) path := by
  refine ⟨fun path hpath => ⟨fun hlook => ?_, fun hlook => ?_⟩, ?_⟩
  · obtain ⟨⟨found, s'⟩, hok⟩ := refresh_isOk_iff.2 hlook
    have hnew := h.isRefreshed hpath hok
    exact ⟨found, s', hok, hnew.found, hnew.isSome_found, h.isAsNew_refresh hpath hok,
      hnew.otherRoots⟩
  · cases hok : s.refresh files path with
    | error error => exact ⟨error, rfl⟩
    | ok result => exact absurd (refresh_isOk_iff.1 ⟨result, hok⟩) hlook
  · intro before arrival after path t harrivals hmem earlier now hlook hbefore hsame
    rw [List.forall_mem_append, List.forall_mem_cons] at harrivals
    obtain ⟨hproper, harrival, hafter⟩ := harrivals
    have hpaths : ∀ p ∈ changedSources arrival.changes, p.IsProper :=
      fun _ hp => Action.isProper_of_mem_changedSources hp
    have hnow : now = arrival.applyTo (Arrival.filesAfter files before) :=
      Arrival.filesAfter_append files before [arrival]
    have hhist : History now earlier :=
      hnow ▸ (Action.showArrivals_history h hproper).applyTo harrival
    -- the batch brings the file up to date, and nothing after it concerns the file
    have hnew := Action.showChanges_isAsNew_of_mem
      (t := ((showArrivals files s before).run t).2) hhist hpaths hmem hlook hbefore
    rw [Action.showArrivals_append, Action.showArrivals_cons, Arrival.filesAfter_append, ← hnow]
    change Session.IsAsNew _ (Arrival.filesAfter (arrival.applyTo _) after) path
    rw [← hnow]
    exact Action.showArrivals_isAsNew (Action.showChanges_history hhist hpaths)
      (hpaths path hmem) hafter hnew hsame

namespace Watching

def classText : List UInt8 :=
  Text.Utf8.encode "Function test_a($t : Object)\n\t$t.assert.isTrue($t; 1; 1; \"m\")\n".toList

def classPath : Path := .ofString "Classes/ATest.4dm"

def oneClass : Files := (Files.empty ⟨"/", ["w"]⟩).write classPath classText

def noTests : Session := { workspace := ⟨"/", ["w"]⟩, settings := .default }

theorem oneClass_history : History oneClass noTests :=
  .add _ (.start _ _ (Path.isProper_ofString "/w")) (Path.isProper_ofString _)

def deletion : Arrival := { deleted := [classPath], changes := [(3, "Classes/ATest.4dm")] }

end Watching

open Watching

/-- A class is read, and is given up again when it was deleted. -/
theorem History.refresh_isAsNew_oneClass :
    (∃ key s', noTests.refresh oneClass classPath = .ok (some key, s') ∧
      s'.IsAsNew oneClass classPath) ∧
    ((showArrivals oneClass noTests [deletion]).run {}).1.IsAsNew
      (Arrival.filesAfter oneClass [deletion]) classPath := by
  obtain ⟨hread, hwatched⟩ := History.refresh_isAsNew oneClass_history
  have hfind : oneClass.find? (Path.resolve oneClass.current classPath) =
      .ok (some (["w", "Classes", "ATest.4dm"], .file classText)) := by decide +kernel
  have htext : oneClass.text? (Path.resolve oneClass.current classPath) =
      some (Files.textOf classText) := by
    rw [Files.text?, Files.content?, hfind]
    rfl
  obtain ⟨found, s', hok, _, hsome, hnew, _⟩ :=
    (hread classPath (Path.isProper_ofString _)).1 ⟨by decide +kernel, _, hfind⟩
  have hfound : found.isSome := hsome.2 ⟨_, htext, by decide +kernel⟩
  obtain ⟨key, rfl⟩ := Option.isSome_iff_exists.1 hfound
  refine ⟨⟨key, s', hok, hnew⟩, ?_⟩
  have hchanged : changedSources deletion.changes = [classPath] := by decide +kernel
  have hgone : (Arrival.filesAfter oneClass [deletion]).find?
      (Path.resolve oneClass.current classPath) = .ok none := by decide +kernel
  apply hwatched [] deletion [] classPath {}
  · rw [List.nil_append, List.forall_mem_singleton]
    exact List.forall_mem_nil _
  · rw [hchanged]
    exact List.mem_singleton_self _
  · exact ⟨by decide +kernel, none, hgone⟩
  · rw [hchanged, List.takeWhile_cons, if_neg (by simp)]
    exact trivial
  · intro done rest he
    rw [(List.nil_eq_append_iff.1 he).1]
    rfl

namespace Watching

def nullPath : Path := .ofString "a\x00.4dm"

/-- A way to the class by a folder that is not there. -/
def roundabout : Path := .ofString "nowhere/../Classes/ATest.4dm"

/-- Another class comes, in a batch that names a path which cannot be looked up before it. -/
def arrivalBehind : Arrival :=
  { written := [(.ofString "bTest.4dm", .file classText)]
    changes := [(1, "a\x00.4dm"), (1, "bTest.4dm")] }

theorem not_looksUp_nullPath (files : Files) : ¬ files.LooksUp nullPath := by
  have hnull : nullPath.hasNull = true := by decide +kernel
  rintro ⟨h, _⟩
  rw [hnull] at h
  cases h

theorem changedSources_arrivalBehind :
    changedSources arrivalBehind.changes = [nullPath, .ofString "bTest.4dm"] := by
  rw [changedSources, Path.sort, List.mergeSort_of_pairwise]
  · decide +kernel
  · decide +kernel

theorem showArrivals_arrivalBehind :
    ((showArrivals oneClass noTests [arrivalBehind]).run {}).1 = noTests := by
  cases hok : noTests.refresh (arrivalBehind.applyTo oneClass) nullPath with
  | error error =>
    rw [Action.showArrivals_cons, changedSources_arrivalBehind, Action.showChanges_of_error hok]
    rfl
  | ok result => exact absurd (refresh_isOk_iff.1 ⟨result, hok⟩) (not_looksUp_nullPath _)

end Watching

/-- Paths for which reading anew is not what it is for others: one for which nothing is returned,
one that is no file although a root is returned for it, and one that is not read anew since the
path before it in the batch cannot be looked up. -/
theorem Session.refresh_unusualPaths : History oneClass noTests ∧
    (¬ ∃ result, noTests.refresh oneClass nullPath = .ok result) ∧
    (oneClass.isFile roundabout = .ok false ∧
      ∃ key s', noTests.refresh oneClass roundabout = .ok (some key, s')) ∧
    Path.ofString "bTest.4dm" ∈ changedSources arrivalBehind.changes ∧
    ¬ ((showArrivals oneClass noTests [arrivalBehind]).run {}).1.IsAsNew
      (Arrival.filesAfter oneClass [arrivalBehind]) (.ofString "bTest.4dm") := by
  have hheadings : Source.headings (Source.scan (Files.textOf classText)) ≠ [] := by decide +kernel
  refine ⟨oneClass_history, ?_, ⟨by decide +kernel, ?_⟩, ?_, ?_⟩
  · rw [refresh_isOk_iff]
    exact not_looksUp_nullPath oneClass
  · have hfind : oneClass.find? (Path.resolve oneClass.current roundabout) =
        .ok (some (["w", "Classes", "ATest.4dm"], .file classText)) := by decide +kernel
    have htext : oneClass.text? (Path.resolve oneClass.current roundabout) =
        some (Files.textOf classText) := by
      rw [Files.text?, Files.content?, hfind]
      rfl
    obtain ⟨⟨found, s'⟩, hok⟩ := refresh_isOk_iff.2 ⟨by decide +kernel, _, hfind⟩
    have hnew := oneClass_history.isRefreshed (Path.isProper_ofString _) hok
    obtain ⟨key, rfl⟩ := Option.isSome_iff_exists.1 (hnew.isSome_found.2 ⟨_, htext, hheadings⟩)
    exact ⟨key, s', hok⟩
  · rw [changedSources_arrivalBehind]
    exact List.mem_cons_of_mem _ (List.mem_singleton_self _)
  · have htext : (Arrival.filesAfter oneClass [arrivalBehind]).text?
        (Path.resolve (Arrival.filesAfter oneClass [arrivalBehind]).current (.ofString "bTest.4dm"))
          = some (Files.textOf classText) := by decide +kernel
    have hfull := (Path.isProper_ofString "/w").resolve (Path.isProper_ofString "bTest.4dm")
    rw [showArrivals_arrivalBehind, isAsNew_iff hfull]
    rintro ⟨_, he⟩
    exact Files.treesAt_ne_nil.2 ⟨_, htext, hheadings⟩ he.symm

end SuiteAtlas
