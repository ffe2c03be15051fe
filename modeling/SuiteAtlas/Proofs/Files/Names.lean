import SuiteAtlas.Proofs.Files.Path
import SuiteAtlas.TestFiles

namespace SuiteAtlas

open SuiteAtlas.Path (IsPart)

section Except

variable {ε α β : Type}

theorem exists_of_bind_eq_ok {x : Except ε α} {f : α → Except ε β} {b : β}
    (h : x >>= f = .ok b) : ∃ a, x = .ok a ∧ f a = .ok b := by
  cases x with
  | error e => simp [bind, Except.bind] at h
  | ok a => exact ⟨a, rfl, h⟩

theorem eq_ok_of_toOption {x : Except ε α} {a : α} (h : x.toOption = some a) : x = .ok a := by
  cases x with
  | error e => cases h
  | ok b => exact congrArg Except.ok (Option.some.inj h)

theorem exists_of_mapM_eq_ok {f : α → Except ε β} {xs : List α} {ys : List β}
    (h : xs.mapM f = .ok ys) : ∀ y ∈ ys, ∃ x ∈ xs, f x = .ok y := by
  induction xs generalizing ys with
  | nil =>
    rw [List.mapM_nil] at h
    cases h
    simp
  | cons x xs ih =>
    rw [List.mapM_cons] at h
    obtain ⟨y, hy, h⟩ := exists_of_bind_eq_ok h
    obtain ⟨rest, hrest, h⟩ := exists_of_bind_eq_ok h
    cases h
    rw [List.forall_mem_cons]
    refine ⟨⟨x, List.mem_cons_self, hy⟩, fun z hz => ?_⟩
    obtain ⟨w, hw, hwz⟩ := ih hrest z hz
    exact ⟨w, List.mem_cons_of_mem _ hw, hwz⟩

theorem sublist_of_filterAuxM_eq_ok {f : α → Except ε Bool} {xs kept ys : List α}
    (h : xs.filterAuxM f kept = .ok ys) : ys.reverse.Sublist (kept.reverse ++ xs) := by
  induction xs generalizing kept with
  | nil =>
    cases h
    simp
  | cons x xs ih =>
    rw [List.filterAuxM] at h
    obtain ⟨keep, _, h⟩ := exists_of_bind_eq_ok h
    cases keep with
    | true => simpa using ih h
    | false => exact (ih h).trans ((List.sublist_cons_self x xs).append_left kept.reverse)

theorem subset_of_filterM_eq_ok {f : α → Except ε Bool} {xs ys : List α}
    (h : xs.filterM f = .ok ys) : ys ⊆ xs := by
  rw [List.filterM] at h
  obtain ⟨kept, hkept, h⟩ := exists_of_bind_eq_ok h
  cases h
  simpa using (sublist_of_filterAuxM_eq_ok hkept).subset

theorem eq_ok_of_mapError {ε' : Type} {x : Except ε α} {f : ε → ε'} {a : α}
    (h : x.mapError f = .ok a) : x = .ok a := by
  cases x with
  | error e => cases h
  | ok b => cases h; rfl

end Except

namespace Files

variable {files : Files} {path folder root : Path} {paths : List Path} {names : List String}
  {name : List String} {entries : List (List String × Entry)}

/-- Every name, and the current folder, is made of parts that a path may have. -/
structure HasNames (files : Files) : Prop where
  current : files.current.IsProper
  name : ∀ name ∈ files.entries.map Prod.fst, ∀ part ∈ name, IsPart part

theorem forall_mem_keys_put {motive : List String → Prop} {entry : Entry}
    (h : ∀ n ∈ entries.map Prod.fst, motive n) (hname : motive name) :
    ∀ n ∈ (Keyed.put entries name entry).map Prod.fst, motive n := by
  intro n hn
  rw [Keyed.keys_put] at hn
  split at hn
  · exact h n hn
  · rcases List.mem_append.1 hn with hn | hn
    · exact h n hn
    · rwa [List.mem_singleton.1 hn]

theorem forall_mem_keys_withFolders
    (h : ∀ n ∈ entries.map Prod.fst, ∀ part ∈ n, IsPart part) (hname : ∀ part ∈ name, IsPart part) :
    ∀ n ∈ (withFolders entries name).map Prod.fst, ∀ part ∈ n, IsPart part := by
  have hfold (folders : List (List String)) (entries : List (List String × Entry))
      (hfolders : ∀ f ∈ folders, ∀ part ∈ f, IsPart part)
      (h : ∀ n ∈ entries.map Prod.fst, ∀ part ∈ n, IsPart part) :
      ∀ n ∈ (folders.foldl (fun entries folder => if (entries.lookup folder).isSome then entries
        else Keyed.put entries folder .folder) entries).map Prod.fst, ∀ part ∈ n, IsPart part := by
    induction folders generalizing entries with
    | nil => exact h
    | cons f rest ih =>
      rw [List.forall_mem_cons] at hfolders
      rw [List.foldl_cons]
      apply ih _ hfolders.2
      split
      · exact h
      · exact forall_mem_keys_put h hfolders.1
  apply hfold _ _ _ h
  intro f hf part hpart
  obtain ⟨depth, _, rfl⟩ := List.mem_map.1 hf
  exact hname part (List.mem_of_mem_take hpart)

theorem HasNames.add (h : files.HasNames) (hpath : path.IsProper) (entry : Entry) :
    (files.add path entry).HasNames :=
  have hname := (h.current.resolve hpath).isProper
  ⟨h.current, forall_mem_keys_put (forall_mem_keys_withFolders h.name hname) hname⟩

theorem HasNames.delete (h : files.HasNames) (path : Path) : (files.delete path).HasNames :=
  ⟨h.current, fun name hname =>
    h.name name ((List.filter_sublist.map Prod.fst).subset hname)⟩

theorem hasNames_empty {current : Path} (h : current.IsProper) : (empty current).HasNames := by
  exact HasNames.add ⟨h, by simp⟩ h .folder

theorem HasNames.isPart_of_mem_namesIn (h : files.HasNames) (hn : files.namesIn path = .ok names) :
    ∀ name ∈ names, IsPart name := by
  rw [namesIn] at hn
  obtain ⟨found, _, hn⟩ := exists_of_bind_eq_ok hn
  split at hn
  · cases hn
    intro name hname
    obtain ⟨⟨key, entry⟩, hentry, hlast⟩ := List.mem_filterMap.1 hname
    dsimp only at hlast
    split at hlast
    · exact h.name key (List.mem_map_of_mem hentry) name (List.mem_of_getLast? hlast)
    · simp at hlast
  · cases hn
    simp

theorem HasNames.isProper_of_mem_children (h : files.HasNames) (hfolder : folder.IsProper)
    (hn : files.namesIn folder = .ok names) : ∀ p ∈ names.map folder.child, p.IsProper := by
  intro p hp
  obtain ⟨name, hname, rfl⟩ := List.mem_map.1 hp
  exact hfolder.child (h.isPart_of_mem_namesIn hn name hname)

theorem HasNames.isProper_of_mem_foldersBelow (h : files.HasNames) {depth : Nat}
    (hfolder : folder.IsProper) (hp : files.foldersBelow depth folder = .ok paths) :
    ∀ p ∈ paths, p.IsProper := by
  induction depth generalizing folder paths with
  | zero =>
    cases hp
    simpa using hfolder
  | succ depth ih =>
    rw [foldersBelow] at hp
    obtain ⟨names, hnames, hp⟩ := exists_of_bind_eq_ok hp
    obtain ⟨inner, hinner, hp⟩ := exists_of_bind_eq_ok hp
    obtain ⟨below, hbelow, hp⟩ := exists_of_bind_eq_ok hp
    cases hp
    rw [List.forall_mem_cons]
    refine ⟨hfolder, fun p hp => ?_⟩
    obtain ⟨some, hsome, hp⟩ := List.mem_flatten.1 hp
    obtain ⟨f, hf, he⟩ := exists_of_mapM_eq_ok hbelow some hsome
    have hproper := h.isProper_of_mem_children hfolder hnames f (subset_of_filterM_eq_ok hinner hf)
    exact ih hproper he p hp

def HasEntryNames (parts : List Glob.Part) : Prop :=
  ∀ name, Glob.Part.entry name ∈ parts → IsPart name

theorem isProper_of_mem_mapM_select {rest : List Glob.Part} {folders : List Path}
    {found : List (List Path)}
    (hrest : ∀ {folder : Path} {paths : List Path}, folder.IsProper →
      files.select folder rest = .ok paths → ∀ p ∈ paths, p.IsProper)
    (hfolders : ∀ f ∈ folders, f.IsProper)
    (hfound : folders.mapM (fun path => files.select path rest) = .ok found) :
    ∀ p ∈ found.flatten, p.IsProper := by
  intro p hp
  obtain ⟨some, hsome, hp⟩ := List.mem_flatten.1 hp
  obtain ⟨f, hf, he⟩ := exists_of_mapM_eq_ok hfound some hsome
  exact hrest (hfolders f hf) he p hp

theorem HasNames.isProper_of_mem_select (h : files.HasNames) {parts : List Glob.Part}
    (hparts : HasEntryNames parts) (hfolder : folder.IsProper)
    (hp : files.select folder parts = .ok paths) : ∀ p ∈ paths, p.IsProper := by
  induction parts generalizing folder paths with
  | nil =>
    cases hp
    simpa using hfolder
  | cons part rest ih =>
    have hrest : HasEntryNames rest := fun name hname => hparts name (List.mem_cons_of_mem _ hname)
    cases part with
    | here =>
      cases hp
      simpa using hfolder
    | entry name =>
      rw [select] at hp
      obtain ⟨there, _, hp⟩ := exists_of_bind_eq_ok hp
      split at hp
      · exact ih hrest (hfolder.child (hparts name List.mem_cons_self)) hp
      · cases hp
        simp
    | like signs =>
      rw [select] at hp
      obtain ⟨names, hnames, hp⟩ := exists_of_bind_eq_ok hp
      have hchildren : ∀ f ∈ (names.filter fun name => Glob.accepts signs name.toList).map
          folder.child, f.IsProper := fun f hf =>
        h.isProper_of_mem_children hfolder hnames f ((List.filter_sublist.map _).subset hf)
      dsimp only at hp
      split at hp
      · obtain ⟨folders, hfolders, hp⟩ := exists_of_bind_eq_ok hp
        cases hfolders
        obtain ⟨found, hfound, hp⟩ := exists_of_bind_eq_ok hp
        cases hp
        exact isProper_of_mem_mapM_select (ih hrest) hchildren hfound
      · obtain ⟨folders, hfolders, hp⟩ := exists_of_bind_eq_ok hp
        obtain ⟨found, hfound, hp⟩ := exists_of_bind_eq_ok hp
        cases hp
        exact isProper_of_mem_mapM_select (ih hrest)
          (fun f hf => hchildren f (subset_of_filterM_eq_ok hfolders hf)) hfound
    | folders =>
      rw [select] at hp
      obtain ⟨folders, hfolders, hp⟩ := exists_of_bind_eq_ok hp
      obtain ⟨found, hfound, hp⟩ := exists_of_bind_eq_ok hp
      cases hp
      intro p hp
      exact isProper_of_mem_mapM_select (ih hrest) (h.isProper_of_mem_foldersBelow hfolder hfolders)
        hfound p (List.mem_eraseDups.1 hp)

theorem isPart_of_ofString_eq_ok {text name : String}
    (h : Glob.Part.ofString text = .ok (.entry name)) (htext : IsPart text) : IsPart name := by
  rw [Glob.Part.ofString] at h
  split at h
  · simp at h
  split at h
  · simp at h
  split at h
  · simp at h
  · rw [Except.ok.injEq, Glob.Part.entry.injEq] at h
    exact h ▸ htext

theorem hasEntryNames_parts {pattern : String} {parts : List Glob.Part}
    (h : Glob.parts pattern = .ok parts) : HasEntryNames parts := by
  rw [Glob.parts] at h
  dsimp only at h
  split at h
  · simp at h
  split at h
  · simp at h
  generalize hending : (if pattern.toList.getLast? == some '/' then [Glob.Part.here] else []) =
    ending at h
  split at h
  · simp at h
  obtain ⟨found, hfound, h⟩ := exists_of_bind_eq_ok h
  cases h
  intro name hname
  rcases List.mem_append.1 hname with hname | hname
  · obtain ⟨part, hpart, he⟩ := exists_of_mapM_eq_ok hfound _ hname
    exact isPart_of_ofString_eq_ok he (Path.isProper_ofString pattern part hpart)
  · rw [← hending] at hname
    split at hname <;> simp at hname

theorem HasNames.isProper_of_mem_testFiles (h : files.HasNames) {settings : Settings}
    (hroot : root.IsProper) (hp : testFiles files settings root = .ok paths) :
    ∀ p ∈ paths, p.IsProper := by
  rw [testFiles] at hp
  split at hp
  · obtain ⟨there, _, hp⟩ := exists_of_bind_eq_ok hp
    cases hp
    split
    · simpa using hroot
    · simp
  · obtain ⟨there, _, hp⟩ := exists_of_bind_eq_ok hp
    split at hp
    · obtain ⟨parts, hparts, hp⟩ := exists_of_bind_eq_ok hp
      obtain ⟨found, hfound, hp⟩ := exists_of_bind_eq_ok hp
      obtain ⟨kept, hkept, hp⟩ := exists_of_bind_eq_ok hp
      cases hp
      intro p hp
      rw [Path.sort, List.mem_mergeSort] at hp
      have hmem := subset_of_filterM_eq_ok (eq_ok_of_mapError hkept) hp
      have hfound := eq_ok_of_mapError hfound
      rw [glob] at hfound
      obtain ⟨isFolder, _, hfound⟩ := exists_of_bind_eq_ok hfound
      split at hfound
      · exact h.isProper_of_mem_select (hasEntryNames_parts (eq_ok_of_mapError hparts))
          (hroot.join (Path.isProper_ofString _)) hfound p hmem
      · cases hfound
        simp at hmem
    · cases hp
      simp

end Files

end SuiteAtlas
