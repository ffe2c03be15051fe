import SuiteAtlas.Proofs.Session.Refresh

namespace SuiteAtlas

open Source

/-- The states that files and a session come to, from no files and an empty session on. -/
inductive History : Files → Session → Prop
  | start {folder : Path} (workspace : Path) (settings : Settings) :
    folder.IsProper → History (.empty folder) { workspace, settings }
  | add {files : Files} {s : Session} {path : Path} (entry : Entry) :
    History files s → path.IsProper → History (files.add path entry) s
  | delete {files : Files} {s : Session} (path : Path) :
    History files s → History (files.delete path) s
  | discover {files : Files} {s s' : Session} {root : Path} :
    History files s → root.IsProper → s.discover files root = .ok s' → History files s'
  | refresh {files : Files} {s s' : Session} {path : Path} {found : Option Key} :
    History files s → path.IsProper → s.refresh files path = .ok (found, s') → History files s'
  | reconcile {nesting : Nat} {files : Files} {s : Session} {output : List Char} {run : Run}
    {outcome : Reconciled} :
    History files s → s.reconcile nesting files output run = .ok outcome →
      History files outcome.session

namespace Session

variable {s s' : Session} {files : Files} {path : Path} {found : Option Key}

theorem refreshAll_holdsPaths {ts : List Tree} {paths : List Path} (hfiles : files.HasNames)
    (hpaths : ∀ p ∈ paths, p.IsProper) (hts : s.hierarchy.HoldsPaths ts)
    (hs : s.refreshAll files paths = .ok s') : ∃ ts', s'.hierarchy.HoldsPaths ts' := by
  induction paths generalizing s ts with
  | nil =>
    cases hs
    exact ⟨ts, hts⟩
  | cons path rest ih =>
    rw [List.forall_mem_cons] at hpaths
    obtain ⟨⟨found, s₁⟩, hfirst, hs⟩ := exists_of_bind_eq_ok hs
    have hfull := hfiles.current.resolve hpaths.1
    obtain ⟨ts₁, hts₁⟩ := (refresh_isRefreshed hts hfull hfirst).holdsPaths
    exact ih hpaths.2 hts₁ hs

theorem reconcile_holdsPaths {nesting : Nat} {ts : List Tree} {output : List Char} {run : Run}
    {outcome : Reconciled} (hts : s.hierarchy.HoldsPaths ts)
    (hs : s.reconcile nesting files output run = .ok outcome) :
    ∃ ts', outcome.session.hierarchy.HoldsPaths ts' := by
  have hindex := reconcile_index ⟨ts, hts.holdsFiles⟩ hs
  obtain ⟨ts', hts'⟩ := HoldsFiles.reconcile ⟨ts, hts.holdsFiles⟩ hs
  refine ⟨ts', hts', fun t ht => ?_⟩
  have hmem : (t.content, t.faces) ∈ outcome.session.hierarchy.index := by
    rw [Hierarchy.index, hts'.holds.rootTrees_eq]
    exact List.mem_map_of_mem (f := fun t : Tree => (t.content, t.faces)) ht
  rw [hindex, Hierarchy.index, hts.rootTrees_eq] at hmem
  obtain ⟨r, hr, he⟩ := List.mem_map.1 hmem
  have hcontent : r.content = t.content := (Prod.mk.inj he).1
  exact hcontent ▸ hts.unstamped r hr

/-- A path has the roots that reading its file gives in an empty session, stamps aside. -/
def IsAsNew (s : Session) (files : Files) (path : Path) : Prop :=
  ∀ workspace settings, ∃ found new,
    refresh { workspace, settings } files path = .ok (found, new) ∧
      (s.hierarchy.rootsNamed (Path.resolve files.current path).toString).map Tree.unstamped =
        new.hierarchy.rootTrees.map Tree.unstamped

theorem refresh_empty {new : Session} {workspace : Path} {settings : Settings}
    (hfull : (Path.resolve files.current path).IsFull)
    (hok : refresh { workspace, settings } files path = .ok (found, new)) :
    new.hierarchy.rootTrees.map Tree.unstamped =
      files.treesAt (Path.resolve files.current path) := by
  have hnew := refresh_isRefreshed .empty hfull hok
  rw [← hnew.rootsNamed, Hierarchy.rootsNamed, List.filter_eq_self.2]
  intro t ht
  have hnone : new.hierarchy.otherRoots (Path.resolve files.current path).toString = [] :=
    hnew.otherRoots
  simpa using List.filter_eq_nil_iff.1 hnone t ht

theorem isAsNew_iff (hfull : (Path.resolve files.current path).IsFull) :
    s.IsAsNew files path ↔ files.LooksUp path ∧
      (s.hierarchy.rootsNamed (Path.resolve files.current path).toString).map Tree.unstamped =
        files.treesAt (Path.resolve files.current path) := by
  constructor
  · intro h
    obtain ⟨found, new, hok, he⟩ := h path .default
    exact ⟨refresh_isOk_iff.1 ⟨_, hok⟩, he.trans (refresh_empty hfull hok)⟩
  · rintro ⟨hlook, he⟩ workspace settings
    obtain ⟨⟨found, new⟩, hok⟩ := refresh_isOk_iff.2 hlook
    exact ⟨found, new, hok, he.trans (refresh_empty hfull hok).symm⟩

end Session

namespace History

open Session

variable {s s' : Session} {files : Files} {path : Path} {found : Option Key}

/-- What every history preserves: names are made of parts of paths, and roots are files under full
paths. -/
theorem spec (h : History files s) : files.HasNames ∧ ∃ ts, s.hierarchy.HoldsPaths ts := by
  induction h with
  | start workspace settings hfolder => exact ⟨Files.hasNames_empty hfolder, [], .empty⟩
  | add entry _ hpath ih => exact ⟨ih.1.add hpath entry, ih.2⟩
  | delete path _ ih => exact ⟨ih.1.delete path, ih.2⟩
  | discover _ hroot hs ih =>
    obtain ⟨hfiles, ts, hts⟩ := ih
    obtain ⟨paths, hpaths, hs⟩ := exists_of_bind_eq_ok hs
    exact ⟨hfiles, refreshAll_holdsPaths hfiles (hfiles.isProper_of_mem_testFiles hroot hpaths) hts
      (eq_ok_of_mapError hs)⟩
  | refresh _ hpath hs ih =>
    obtain ⟨hfiles, ts, hts⟩ := ih
    exact ⟨hfiles, (refresh_isRefreshed hts (hfiles.current.resolve hpath) hs).holdsPaths⟩
  | reconcile _ hs ih =>
    obtain ⟨hfiles, ts, hts⟩ := ih
    exact ⟨hfiles, reconcile_holdsPaths hts hs⟩

theorem isFull_resolve (h : History files s) (hpath : path.IsProper) :
    (Path.resolve files.current path).IsFull :=
  h.spec.1.current.resolve hpath

theorem isRefreshed (h : History files s) (hpath : path.IsProper)
    (hok : s.refresh files path = .ok (found, s')) :
    s.IsRefreshed files (Path.resolve files.current path) found s' := by
  obtain ⟨_, ts, hts⟩ := h.spec
  exact refresh_isRefreshed hts (h.isFull_resolve hpath) hok

theorem isAsNew_refresh (h : History files s) (hpath : path.IsProper)
    (hok : s.refresh files path = .ok (found, s')) : s'.IsAsNew files path :=
  (isAsNew_iff (h.isFull_resolve hpath)).2
    ⟨refresh_isOk_iff.1 ⟨_, hok⟩, (h.isRefreshed hpath hok).rootsNamed⟩

end History

end SuiteAtlas
