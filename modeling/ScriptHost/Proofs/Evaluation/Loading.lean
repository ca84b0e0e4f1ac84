import ScriptHost.Scripts
/-!
What is loaded from a directory. The files are read in the order in which the directory lists them, and sorted after that;
what is loaded depends on the entries only, not on their order.
-/
namespace ScriptHost.ScriptFile
variable {files : Files} {root : Path} {entries : List (String × EntryKind)} {scripts : List ScriptFile}

theorem isScript_iff {entry : String × EntryKind} :
    isScript entry = true ↔ entry.2 ≠ .dir ∧ entry.1.endsWith ".js" = true := by
  simp [isScript]

/-- All files can be read, and the scripts are in the order of the entries; or one cannot be read. -/
theorem readAll_cases (files : Files) (root : Path) (entries : List (String × EntryKind)) :
    (∃ scripts, readAll files root entries = .ok scripts ∧ scripts.map (·.name) = entries.map (·.1) ∧
      ∀ s ∈ scripts, files.read (root.join ⟨s.name⟩) = .ok s.body) ∨
    ∃ e, readAll files root entries = .error e ∧ ∃ entry ∈ entries, files.read (root.join ⟨entry.1⟩) = .error e := by
  induction entries with
  | nil => exact .inl ⟨[],rfl,rfl,fun s member => nomatch member⟩
  | cons entry entries ih =>
    obtain ⟨name,kind⟩ := entry
    cases read : files.read (root.join ⟨name⟩) with
    | error e =>
      refine .inr ⟨e,?_,(name,kind),List.mem_cons_self,read⟩
      rw [readAll,read]
      rfl
    | ok body =>
      rcases ih with ⟨scripts,all,names,bodies⟩ | ⟨e,failed,entry,member,unread⟩
      · refine .inl ⟨⟨name,body⟩ :: scripts,?_,congrArg (name :: ·) names,List.forall_mem_cons.mpr ⟨read,bodies⟩⟩
        rw [readAll,read,all]
        rfl
      · refine .inr ⟨e,?_,entry,List.mem_cons_of_mem _ member,unread⟩
        rw [readAll,read,failed]
        rfl

theorem load_eq (listed : files.list root = .ok entries) : load files root =
    match readAll files root (entries.filter isScript) with
    | .error e => .error (.io e)
    | .ok scripts => .ok (scripts.mergeSort fun a b => a.name ≤ b.name) := by
  unfold load
  split
  · next e failed => cases failed.symm.trans listed
  · next found =>
    cases found.symm.trans listed
    rfl

/-- What is loaded has the scripts that there are, each once, by their names. -/
theorem load_cases (listed : files.list root = .ok entries) (distinct : (entries.map (·.1)).Nodup) :
    (∃ scripts, load files root = .ok scripts ∧ scripts.Pairwise (fun a b => a.name < b.name) ∧
      ∀ s, s ∈ scripts ↔ ∃ kind, (s.name,kind) ∈ entries ∧ isScript (s.name,kind) = true ∧
        files.read (root.join ⟨s.name⟩) = .ok s.body) ∧
      (∀ entry ∈ entries, isScript entry = true → ∃ body, files.read (root.join ⟨entry.1⟩) = .ok body) ∨
    (∃ e, load files root = .error (.io e)) ∧
      ∃ entry ∈ entries, isScript entry = true ∧ ∃ e, files.read (root.join ⟨entry.1⟩) = .error e := by
  rw [load_eq listed]
  rcases readAll_cases files root (entries.filter isScript) with ⟨scripts,all,names,bodies⟩ | ⟨e,failed,entry,member,unread⟩
  · have distinct : (scripts.map (·.name)).Nodup := names ▸ distinct.sublist (List.filter_sublist.map _)
    have sorts := List.mergeSort_perm scripts fun a b => a.name ≤ b.name
    have members : ∀ {s}, s ∈ scripts.mergeSort (fun a b => a.name ≤ b.name) ↔ s ∈ scripts := sorts.mem_iff
    have named : ∀ name, name ∈ scripts.map (·.name) ↔ ∃ kind, (name,kind) ∈ entries ∧ isScript (name,kind) = true := by
      intro name
      rw [names]
      simp
    rw [all]
    refine .inl ⟨⟨_,rfl,?_,fun s => ?_⟩,fun entry member script => ?_⟩
    · have ordered : (scripts.mergeSort fun a b => a.name ≤ b.name).Pairwise fun a b => decide (a.name ≤ b.name) = true :=
        List.pairwise_mergeSort
          (fun a b c first second => by
            simp only [decide_eq_true_eq] at first second ⊢
            exact String.le_trans first second)
          (fun a b => by simpa using String.le_total a.name b.name) scripts
      have apart := List.pairwise_map.mp ((sorts.map (·.name)).nodup_iff.mpr distinct)
      exact (ordered.and apart).imp fun ⟨le,other⟩ => Std.lt_of_le_of_ne (of_decide_eq_true le) other
    · rw [members]
      constructor
      · intro member
        obtain ⟨kind,entry,script⟩ := (named s.name).mp (List.mem_map_of_mem member)
        exact ⟨kind,entry,script,bodies s member⟩
      · rintro ⟨kind,entry,script,read⟩
        obtain ⟨t,member,same⟩ := List.mem_map.mp ((named s.name).mpr ⟨kind,entry,script⟩)
        have body := bodies t member
        rw [same,read] at body
        cases s
        cases t
        cases same
        cases body
        exact member
    · obtain ⟨s,member,same⟩ := List.mem_map.mp ((named entry.1).mpr ⟨entry.2,member,script⟩)
      exact ⟨s.body,same ▸ bodies s member⟩
  · obtain ⟨member,script⟩ := List.mem_filter.mp member
    rw [failed]
    exact .inr ⟨⟨e,rfl⟩,entry,member,script,e,unread⟩

/-- Loading fails just if some script cannot be read. -/
theorem load_fails_iff (listed : files.list root = .ok entries) (distinct : (entries.map (·.1)).Nodup) :
    (∃ e, load files root = .error e) ↔
      ∃ entry ∈ entries, isScript entry = true ∧ ∃ e, files.read (root.join ⟨entry.1⟩) = .error e := by
  rcases load_cases listed distinct with ⟨⟨scripts,loaded,-⟩,readable⟩ | ⟨⟨e,failed⟩,unread⟩
  · constructor
    · rintro ⟨e,failed⟩
      cases loaded.symm.trans failed
    · rintro ⟨entry,member,script,e,unread⟩
      obtain ⟨body,read⟩ := readable entry member script
      cases read.symm.trans unread
  · exact ⟨fun _ => unread,fun _ => ⟨_,failed⟩⟩

theorem load_sorts (listed : files.list root = .ok entries) (distinct : (entries.map (·.1)).Nodup)
    (loaded : load files root = .ok scripts) : scripts.Pairwise (fun a b => a.name < b.name) ∧
    ∀ s, s ∈ scripts ↔ ∃ kind, (s.name,kind) ∈ entries ∧ isScript (s.name,kind) = true ∧
      files.read (root.join ⟨s.name⟩) = .ok s.body := by
  rcases load_cases listed distinct with ⟨⟨same,here,sorts⟩,-⟩ | ⟨⟨e,failed⟩,-⟩
  · cases here.symm.trans loaded
    exact sorts
  · cases failed.symm.trans loaded

/-- The order in which a directory lists its entries does not matter. -/
theorem load_perm {other : Files} {listing : List (String × EntryKind)} (listed : files.list root = .ok entries)
    (distinct : (entries.map (·.1)).Nodup) (relisted : other.list root = .ok listing) (perm : listing.Perm entries)
    (same : ∀ path, other.read path = files.read path) (loaded : load files root = .ok scripts) :
    load other root = .ok scripts := by
  have distinct' : (listing.map (·.1)).Nodup := (perm.map (·.1)).nodup_iff.mpr distinct
  obtain ⟨sorted,members⟩ := load_sorts listed distinct loaded
  rcases load_cases relisted distinct' with ⟨⟨others,reloaded,sorted',members'⟩,-⟩ | ⟨-,entry,member,script,e,unread⟩
  · rw [reloaded]
    refine congrArg Except.ok ?_
    have apart {l : List ScriptFile} (sorted : l.Pairwise fun a b => a.name < b.name) : l.Nodup := by
      refine List.Pairwise.imp (fun {a b} less => ?_) sorted
      rintro rfl
      exact String.lt_irrefl _ less
    have alike : others.Perm scripts := (List.perm_ext_iff_of_nodup (apart sorted') (apart sorted)).mpr fun s => by
      rw [members',members]
      simp only [perm.mem_iff,same]
    exact alike.eq_of_pairwise (fun a b _ _ first second => absurd (Std.lt_trans first second) (String.lt_irrefl _))
      sorted' sorted
  · have failed := (load_fails_iff listed distinct).mpr ⟨entry,perm.mem_iff.mp member,script,e,same _ ▸ unread⟩
    obtain ⟨e,failed⟩ := failed
    cases failed.symm.trans loaded

end ScriptHost.ScriptFile
