import Checklist.FileTree

namespace Checklist

namespace Text

/-- The bytes of a text in a file. -/
def bytes (t : Text) : ByteArray :=
  (String.ofList t).toUTF8

theorem fromUTF8?_bytes (t : Text) : String.fromUTF8? t.bytes = some (String.ofList t) :=
  dif_pos (String.ofList t).isValidUTF8

theorem bytes_of_fromUTF8? {content : ByteArray} {s : String}
    (h : String.fromUTF8? content = some s) : bytes s.toList = content := by
  rw [bytes, String.ofList_toList]
  unfold String.fromUTF8? at h
  split at h
  · cases h
    rfl
  · cases h

theorem bytes_inj {t u : Text} : t.bytes = u.bytes ↔ t = u := by
  constructor
  · intro h
    have hstring := fromUTF8?_bytes t
    rw [h, fromUTF8?_bytes u, Option.some.injEq] at hstring
    rw [← String.toList_ofList (l := t), ← hstring, String.toList_ofList]
  · exact congrArg bytes

end Text

namespace FileTree

/-- Files with texts and the directories above them, and nothing else. -/
def ofTexts (files : List (List Text × Text)) : FileTree :=
  files.foldl (fun tree (location, t) => tree.add location (.file t.bytes)) empty

variable {tree : FileTree} {directory location : List Text} {path : Path}

section Entries

/-- Putting one value in every place of a key shows under that key alone. -/
theorem lookup_replace {α : Type} (l : List (List Text × α)) (key other : List Text) (new : α) :
    (l.map fun (k, old) => if k = key then (k, new) else (k, old)).lookup other =
      (l.lookup other).map fun old => if other = key then new else old := by
  induction l with
  | nil => rfl
  | cons entry rest ih =>
    obtain ⟨k, old⟩ := entry
    have hhead : (if k = key then (k, new) else (k, old)) = (k, if k = key then new else old) := by
      split <;> rfl
    rw [List.map_cons, List.lookup_cons]
    dsimp only
    rw [hhead, List.lookup_cons]
    by_cases hother : other = k
    · rw [beq_iff_eq.mpr hother, hother]
      rfl
    · rw [beq_eq_false_iff_ne.mpr hother]
      exact ih

theorem entry?_of_ne (h : location ≠ []) : tree.entry? location = tree.entries.lookup location :=
  if_neg h

/-- An entry that is set shows at its location and nowhere else. -/
theorem entry?_set (tree : FileTree) (h : location ≠ []) (entry : FileEntry) (other : List Text) :
    entry? (tree.set location entry) other =
      if other = location then some entry else tree.entry? other := by
  by_cases hroot : other = []
  · subst hroot
    rw [if_neg (Ne.symm h)]
    rfl
  · rw [entry?_of_ne hroot, entry?_of_ne hroot, set]
    split
    · rename_i hthere
      obtain ⟨old, hold⟩ := Option.isSome_iff_exists.mp hthere
      rw [lookup_replace]
      split
      · rename_i he
        rw [he, hold, Option.map_some]
      · exact Option.map_id'
    · rename_i hmissing
      rw [Option.not_isSome_iff_eq_none] at hmissing
      rw [List.lookup_append, List.lookup_cons]
      by_cases he : other = location
      · rw [beq_iff_eq.mpr he, if_pos he, he, hmissing, Option.none_or]
      · rw [beq_eq_false_iff_ne.mpr he, if_neg he]
        exact Option.or_none

theorem location_ne_nil {content : ByteArray} (h : tree.entry? location = some (.file content)) :
    location ≠ [] := by
  rintro rfl
  cases h

end Entries

section Files

/-- A path leads from a working directory to a file, which has the bytes of a text. -/
structure Holds (tree : FileTree) (directory : List Text) (path : Path) (location : List Text)
    (t : Text) : Prop where
  place : tree.place directory path = .ok location
  entry : tree.entry? location = some (.file t.bytes)
  no_slash : path.endsInSlash = false

theorem read_file {content : ByteArray} (hplace : tree.place directory path = .ok location)
    (hentry : tree.entry? location = some (.file content)) :
    tree.read directory path =
      if path.endsInSlash then .error .notDirectory
      else match String.fromUTF8? content with
        | some text => .ok text.toList
        | none => .error .notText := by
  simp only [read, hplace, bind, Except.bind, hentry]
  split
  · rfl
  · rfl

theorem exists_file_of_read {t : Text} (h : tree.read directory path = .ok t) :
    ∃ location content, tree.place directory path = .ok location ∧
      tree.entry? location = some (.file content) := by
  simp only [read, bind, Except.bind] at h
  split at h
  · cases h
  · rename_i location hplace
    split at h
    · cases h
    · cases h
    · rename_i content hentry
      exact ⟨location, content, hplace, hentry⟩

/-- What can be read is what a file holds. -/
theorem read_eq_ok_iff {t : Text} :
    tree.read directory path = .ok t ↔ ∃ location, tree.Holds directory path location t := by
  constructor
  · intro h
    obtain ⟨location, content, hplace, hentry⟩ := exists_file_of_read h
    rw [read_file hplace hentry] at h
    split at h
    · cases h
    · rename_i hslash
      split at h
      · rename_i text htext
        cases h
        refine ⟨location, hplace, ?_, Bool.eq_false_iff.mpr hslash⟩
        rw [hentry, Text.bytes_of_fromUTF8? htext]
      · cases h
  · rintro ⟨location, hplace, hentry, hslash⟩
    rw [read_file hplace hentry, hslash, Text.fromUTF8?_bytes]
    simp only [Bool.false_eq_true, ↓reduceIte, String.toList_ofList]

/-- A file that holds a text can be written. -/
theorem Holds.write {old : Text} (h : tree.Holds directory path location old) (new : Text) :
    tree.write directory path new = .ok (tree.set location (.file new.bytes)) := by
  simp only [FileTree.write, h.place, bind, Except.bind, h.entry, h.no_slash]
  rfl

/-- Other bytes in a file leave all steps of paths as they are. -/
theorem follow_set {old : ByteArray} (h : tree.entry? location = some (.file old))
    (new : ByteArray) (start : List Text) (steps : List Text) :
    (tree.set location (.file new)).follow start steps = tree.follow start steps := by
  have hentry := tree.entry?_set (location_ne_nil h) (.file new)
  induction steps generalizing start with
  | nil => simp only [follow]
  | cons step rest ih =>
    simp only [follow, hentry, ih]
    by_cases hstart : start = location
    · simp only [hstart, h, ↓reduceIte]
    · simp only [hstart, ↓reduceIte]

theorem Holds.set {old : Text} (h : tree.Holds directory path location old) (new : Text) :
    (tree.set location (.file new.bytes)).Holds directory path location new where
  place := by
    rw [FileTree.place, follow_set h.entry]
    exact h.place
  entry := by rw [tree.entry?_set (location_ne_nil h.entry), if_pos rfl]
  no_slash := h.no_slash

end Files

/-- One file of a tree has been given a text, and all other entries are the same. -/
structure Rewritten (tree tree' : FileTree) (directory : List Text) (path : Path)
    (location : List Text) (t : Text) : Prop where
  holds : tree'.Holds directory path location t
  others : ∀ other, other ≠ location → tree'.entry? other = tree.entry? other

section Rewritten

variable {tree first second : FileTree} {directory : List Text} {path : Path}
  {location : List Text} {t new : Text}

theorem Holds.rewritten (h : tree.Holds directory path location t) (new : Text) :
    tree.Rewritten (tree.set location (.file new.bytes)) directory path location new where
  holds := h.set new
  others other hne :=
    (tree.entry?_set (location_ne_nil h.entry) _ other).trans (if_neg hne)

theorem Rewritten.trans (h : tree.Rewritten first directory path location t)
    (hnext : first.Rewritten second directory path location new) :
    tree.Rewritten second directory path location new where
  holds := hnext.holds
  others other hne := (hnext.others other hne).trans (h.others other hne)

/-- The text that is given is all there is to tell apart afterwards. -/
theorem Rewritten.entry?_eq (h : tree.Rewritten first directory path location t)
    (h' : tree.Rewritten second directory path location t) (other : List Text) :
    first.entry? other = second.entry? other := by
  by_cases hother : other = location
  · rw [hother, h.holds.entry, h'.holds.entry]
  · rw [h.others other hother, h'.others other hother]

end Rewritten

end FileTree

end Checklist
