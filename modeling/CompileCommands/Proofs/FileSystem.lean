/-
What was written to a file is found in it.

A file is written where its path leads.  That place is no directory, so writing there takes
no directory away, and all paths that could be followed before lead where they led.
-/
import CompileCommands.FileSystem
import CompileCommands.Proofs.Result

namespace CompileCommands.FileSystem

variable {fs : FileSystem}

/-! ### What is at a location -/

@[simp]
theorem below_put (location l : Location) (node : FileNode) :
    (fs.put location node).below l = if l = location then some node else fs.below l := rfl

@[simp]
theorem node_cons (name : String) (rest : Location) :
    fs.node? (name :: rest) = fs.below (name :: rest) := rfl

@[simp]
theorem node_put {location l : Location} {node : FileNode} (hne : l ≠ location) :
    (fs.put location node).node? l = fs.node? l := by
  cases l with
  | nil => rfl
  | cons name rest => simp [hne]

@[simp]
theorem node_put_self {location : Location} (hroot : location ≠ []) (node : FileNode) :
    (fs.put location node).node? location = some node := by
  cases location with
  | nil => exact absurd rfl hroot
  | cons name rest => simp

@[simp]
theorem put_put (location : Location) (first second : FileNode) :
    (fs.put location first).put location second = fs.put location second := by
  unfold put
  congr 1
  funext l
  by_cases h : l = location
  · simp [h]
  · simp [h]

/-! ### Following a path past a new file -/

/-- Where there is no directory, something else may be put without blocking any way. -/
theorem follow_put {location : Location} (hlocation : fs.node? location ≠ some .directory)
    (node : FileNode) {here there : Location} {steps : List String}
    (h : fs.follow here steps = .ok there) :
    (fs.put location node).follow here steps = .ok there := by
  have hkept : ∀ {l : Location}, fs.node? l = some .directory →
      (fs.put location node).node? l = some .directory := by
    intro l hl
    rw [node_put, hl]
    intro heq
    exact hlocation (heq ▸ hl)
  fun_induction follow fs here steps with
  | case1 => exact h
  | case2 => cases h
  | case3 => cases h
  | case4 here step rest hhere hstay ih =>
    rw [follow, hkept hhere]
    simp only [if_pos hstay]
    exact ih h
  | case5 here rest hhere hstay ih =>
    rw [follow, hkept hhere]
    simp only [if_neg hstay]
    exact ih h
  | case6 => cases h
  | case7 here step rest hhere hstay hup hlong ih =>
    rw [follow, hkept hhere]
    simp only [if_neg hstay, if_neg hup, if_neg hlong]
    exact ih h

theorem resolve_put {location : Location} (hlocation : fs.node? location ≠ some .directory)
    (node : FileNode) {path : Path} {there : Location} (h : fs.resolve path = .ok there) :
    (fs.put location node).resolve path = .ok there := by
  obtain ⟨_, hspelling, hfollow⟩ := bind_eq_ok_iff.mp h
  exact bind_eq_ok_iff.mpr ⟨_, hspelling, follow_put hlocation node hfollow⟩

/-! ### Writing and opening -/

/-- A file is written where its path leads, unless the path is that of a directory. -/
theorem fileLocation_eq_ok_iff {path : Path} {location : Location} :
    fs.fileLocation path = .ok location
      ↔ path.text.toList.getLast? ≠ some '/' ∧ fs.resolve path = .ok location
        ∧ fs.node? location ≠ some .directory := by
  unfold fileLocation resolve
  constructor
  · intro h
    obtain ⟨_, hspelling, hrest⟩ := bind_eq_ok_iff.mp h
    by_cases hslash : path.text.toList.getLast? = some '/'
    · simp only [if_pos hslash] at hrest
      obtain ⟨_, -, hthrow⟩ := bind_eq_ok_iff.mp hrest
      cases hthrow
    · simp only [if_neg hslash] at hrest
      obtain ⟨there, hfollow, hnode⟩ := bind_eq_ok_iff.mp hrest
      split at hnode
      · cases hnode
      · rename_i hfree
        cases hnode
        exact ⟨hslash, bind_eq_ok_iff.mpr ⟨_, hspelling, hfollow⟩, hfree⟩
  · intro h
    obtain ⟨hslash, hresolve, hfree⟩ := h
    obtain ⟨_, hspelling, hfollow⟩ := bind_eq_ok_iff.mp hresolve
    refine bind_eq_ok_iff.mpr ⟨_, hspelling, ?_⟩
    simp only [if_neg hslash]
    refine bind_eq_ok_iff.mpr ⟨location, hfollow, ?_⟩
    split
    · rename_i hdirectory
      exact absurd hdirectory hfree
    · rfl

/-- A file is never written to the root. -/
theorem fileLocation_ne_nil {path : Path} {location : Location}
    (h : fs.fileLocation path = .ok location) : location ≠ [] := by
  obtain ⟨-, -, hfree⟩ := fileLocation_eq_ok_iff.mp h
  rintro rfl
  exact hfree rfl

/-- A file that was written can be written again. -/
theorem fileLocation_put {path : Path} {location : Location} {content : ByteArray}
    (h : fs.fileLocation path = .ok location) :
    (fs.put location (.file content)).fileLocation path = .ok location := by
  obtain ⟨hslash, hresolve, hfree⟩ := fileLocation_eq_ok_iff.mp h
  refine fileLocation_eq_ok_iff.mpr ⟨hslash, resolve_put hfree _ hresolve, ?_⟩
  simp [fileLocation_ne_nil h]

theorem write_eq_ok_iff {path : Path} {content : ByteArray} {written : FileSystem} :
    fs.write path content = .ok written
      ↔ ∃ location, fs.fileLocation path = .ok location
        ∧ written = fs.put location (.file content) := by
  rw [write, bind_eq_ok_iff]
  refine exists_congr fun location => and_congr_right fun _ => ⟨fun h => ?_, fun h => ?_⟩
  · exact (Except.ok.inj h).symm
  · rw [h]
    rfl

/-- A file that was created can be written. -/
theorem exists_write_of_create {created : FileSystem} {path : Path}
    (h : fs.create path = .ok created) (content : ByteArray) :
    ∃ written, created.write path content = .ok written := by
  obtain ⟨location, hlocation, rfl⟩ := write_eq_ok_iff.mp h
  exact ⟨_, write_eq_ok_iff.mpr ⟨location, fileLocation_put hlocation, rfl⟩⟩

/-- What comes of opening what is at a location. -/
def contentOf : Option FileNode → Except FileError (Except FileError ByteArray)
  | none => .error .notFound
  | some .directory => .ok (.error .isDirectory)
  | some (.file content) => .ok (.ok content)

theorem openFile_eq_ok_iff {path : Path} {opened : Except FileError ByteArray} :
    fs.openFile path = .ok opened
      ↔ ∃ location, fs.resolve path = .ok location
        ∧ contentOf (fs.node? location) = .ok opened := by
  rw [openFile, bind_eq_ok_iff]
  refine exists_congr fun location => and_congr_right fun _ => ?_
  rcases fs.node? location with _ | node
  · exact Iff.rfl
  · cases node <;> exact Iff.rfl

/-- **A file is opened with the content it was written with.** -/
theorem openFile_write {written : FileSystem} {path : Path} {content : ByteArray}
    (h : fs.write path content = .ok written) :
    written.openFile path = .ok (.ok content) := by
  obtain ⟨location, hlocation, rfl⟩ := write_eq_ok_iff.mp h
  obtain ⟨-, hresolve, hfree⟩ := fileLocation_eq_ok_iff.mp hlocation
  refine openFile_eq_ok_iff.mpr ⟨location, resolve_put hfree _ hresolve, ?_⟩
  simp [fileLocation_ne_nil hlocation, contentOf]

/-! ### Writing beside and writing again -/

/-- Whatever a file was created with, it holds what it was written with last. -/
theorem write_of_create {created written : FileSystem} {path : Path} {content : ByteArray}
    (hcreate : fs.create path = .ok created) (hwrite : created.write path content = .ok written) :
    fs.write path content = .ok written := by
  obtain ⟨location, hlocation, rfl⟩ := write_eq_ok_iff.mp hcreate
  obtain ⟨again, hagain, rfl⟩ := write_eq_ok_iff.mp hwrite
  rw [fileLocation_put hlocation] at hagain
  cases hagain
  exact write_eq_ok_iff.mpr ⟨location, hlocation, put_put location _ _⟩

/-- A file that was written is created anew as it was created. -/
theorem create_of_write {written : FileSystem} {path : Path} {content : ByteArray}
    (h : fs.write path content = .ok written) :
    ∃ created, fs.create path = .ok created ∧ written.create path = .ok created := by
  obtain ⟨location, hlocation, rfl⟩ := write_eq_ok_iff.mp h
  refine ⟨_, write_eq_ok_iff.mpr ⟨location, hlocation, rfl⟩, ?_⟩
  exact write_eq_ok_iff.mpr ⟨location, fileLocation_put hlocation, (put_put location _ _).symm⟩

/-- **Writing a file leaves what is elsewhere as it was.** -/
theorem openFile_write_of_ne {written : FileSystem} {path other : Path} {content : ByteArray}
    {opened : Except FileError ByteArray} (h : fs.write path content = .ok written)
    (hne : fs.resolve other ≠ fs.resolve path) (hopened : fs.openFile other = .ok opened) :
    written.openFile other = .ok opened := by
  obtain ⟨location, hlocation, rfl⟩ := write_eq_ok_iff.mp h
  obtain ⟨-, hresolve, hfree⟩ := fileLocation_eq_ok_iff.mp hlocation
  obtain ⟨elsewhere, helsewhere, hnode⟩ := openFile_eq_ok_iff.mp hopened
  have hdistinct : elsewhere ≠ location := by
    rintro rfl
    exact hne (helsewhere.trans hresolve.symm)
  refine openFile_eq_ok_iff.mpr ⟨elsewhere, resolve_put hfree _ helsewhere, ?_⟩
  simpa [hdistinct] using hnode

theorem isPresent_write {written : FileSystem} {path : Path} {content : ByteArray}
    (h : fs.write path content = .ok written) : written.isPresent path = true := by
  obtain ⟨location, hresolve, hnode⟩ := openFile_eq_ok_iff.mp (openFile_write h)
  rw [isPresent, hresolve]
  show (written.node? location).isSome = true
  cases hfound : written.node? location with
  | some node => rfl
  | none =>
    rw [hfound] at hnode
    cases hnode

end CompileCommands.FileSystem
