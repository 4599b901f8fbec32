import NodeHealth.FileTree

/-!
# Files are read as they were written

A path that leads to a place leads there still when a file has been put somewhere: the walk
passes through directories only, and no file is put in the place of one.

-/

namespace NodeHealth.FileTree

variable {tree later : FileTree} {path : String} {content : Bytes}

theorem lookup_filter_of_ne {place other : Place} (h : place ≠ other)
    (nodes : List (Place × FileNode)) :
    (nodes.filter fun entry => entry.1 ≠ place).lookup other = nodes.lookup other := by
  induction nodes with
  | nil => rfl
  | cons entry nodes ih =>
      obtain ⟨stored, node⟩ := entry
      by_cases hplace : stored = place
      · have hother : (other == stored) = false := by simp [hplace, h.symm]
        rw [List.filter_cons_of_neg (by simp [hplace]), ih, List.lookup_cons, hother]
      · rw [List.filter_cons_of_pos (by simp [hplace]), List.lookup_cons, List.lookup_cons, ih]

/-- What is put at a place is put at no other. -/
theorem node?_put_of_ne (tree : FileTree) {place other : Place} (node : FileNode)
    (h : place ≠ other) : (tree.put place node).node? other = tree.node? other := by
  have hother : (other == place) = false := by simp [h.symm]
  simp only [node?, put, List.lookup_cons, hother, lookup_filter_of_ne h]

/-- A path that leads somewhere passes no place but directories, and what is put anywhere else
does not divert it. -/
theorem walk_put {place start target : Place} {parts : List String} (node : FileNode)
    (hplace : tree.node? place ≠ some .directory) (h : tree.walk start parts = .ok target) :
    (tree.put place node).walk start parts = .ok target := by
  induction parts generalizing start with
  | nil => exact h
  | cons part parts ih =>
      simp only [walk] at h
      split at h
      · cases h
      · cases h
      · rename_i hstart
        have hne : place ≠ start := by
          rintro rfl
          exact hplace hstart
        simp only [walk, node?_put_of_ne tree node hne, hstart]
        split at h
        · rename_i hstay
          rw [if_pos hstay]
          exact ih h
        · rename_i hmove
          rw [if_neg hmove]
          split at h
          · rename_i hup
            rw [if_pos hup]
            exact ih h
          · rename_i hdown
            rw [if_neg hdown]
            exact ih h

/-- Writing puts the file at the place to which the path leads, where there is no
directory. -/
theorem write_cases (h : tree.write path content = .ok later) :
    ∃ place, tree.resolve path = .ok place ∧ tree.node? place ≠ some .directory ∧
      later = tree.put place (.file content) := by
  simp only [write] at h
  split at h
  · cases hwalk : tree.walk (origin path) (partsBefore path ++ [""]) with
    | error cause => simp [hwalk, bind, Except.bind] at h
    | ok place => simp [hwalk, bind, Except.bind, throw, throwThe, MonadExceptOf.throw] at h
  · cases hresolve : tree.resolve path with
    | error cause => simp [hresolve, bind, Except.bind] at h
    | ok place =>
        simp only [hresolve, bind, Except.bind] at h
        split at h
        · cases h
        · rename_i hnode
          cases h
          exact ⟨place, rfl, hnode, rfl⟩

/-- What has been written to a file is there, and is read from it. -/
theorem read_write (h : tree.write path content = .ok later) :
    later.contains path = true ∧ later.read path = .ok content := by
  obtain ⟨place, hresolve, hnode, rfl⟩ := write_cases h
  have hancestor : isAncestor place = false := by
    cases hancestor : isAncestor place
    · rfl
    · simp [node?, hancestor] at hnode
  have hlater : (tree.put place (.file content)).resolve path = .ok place := by
    unfold resolve at hresolve ⊢
    split at hresolve
    · cases hresolve
    · rename_i hpath
      rw [if_neg hpath]
      exact walk_put _ hnode hresolve
  have hfile := node?_put tree (.file content) hancestor
  exact ⟨by simp [contains, hlater, hfile], by simp [read, hlater, hfile, bind, Except.bind]⟩

/-- What can be read is there. -/
theorem contains_of_read (h : tree.read path = .ok content) : tree.contains path = true := by
  cases hresolve : tree.resolve path with
  | error cause => simp [read, hresolve, bind, Except.bind] at h
  | ok place =>
      simp only [read, hresolve, bind, Except.bind] at h
      split at h
      · rename_i hnode
        simp [contains, hresolve, hnode]
      · cases h
      · cases h

end NodeHealth.FileTree
