import MapHighlight.Proofs.Registry.Globs
import MapHighlight.Proofs.Text.Lossy

/-!
# Files a lexer is found for

The name of a file is the last component of its path, whatever slashes and single dots stand behind
it. A lexer is found if that name can be read and ends as names of maps do; in every other case the
path is reported as far as it can be read.
-/

namespace MapHighlight

namespace UnixPath

variable {path component trailer : List UInt8}

/-- What may stand behind the last component of a path: slashes, some with a single dot after
them. -/
inductive IsTrailer : List UInt8 → Prop
  | nil : IsTrailer []
  | slash {rest : List UInt8} : IsTrailer rest → IsTrailer (slash :: rest)
  | slashDot {rest : List UInt8} : IsTrailer rest → IsTrailer (slash :: (here ++ rest))

/-- The last component of a path. -/
structure IsLast (path component : List UInt8) : Prop where
  /-- It has at least one byte. -/
  ne_nil : component ≠ []
  /-- It is no single dot. -/
  ne_here : component ≠ here
  /-- No slash stands in it. -/
  slash_not_mem : slash ∉ component
  /-- It begins the path or follows a slash, and only a trailer follows it. -/
  exists_eq : ∃ front trailer, path = front ++ component ++ trailer ∧
    (front = [] ∨ ∃ parent, front = parent ++ [slash]) ∧ IsTrailer trailer

theorem components_append_slash (left right : List UInt8) :
    components (left ++ slash :: right) = components left ++ components right := by
  simp [components, List.splitOn_append_cons_self]

/-- Between slashes stands one component, or nothing that leads anywhere. -/
theorem components_of_not_mem (h : slash ∉ component) :
    components component = if component = [] ∨ component = here then [] else [component] := by
  rw [components, List.splitOn_eq_singleton h]
  by_cases hempty : component = [] ∨ component = here
  · rw [if_pos hempty]
    rcases hempty with rfl | rfl <;> rfl
  · rw [if_neg hempty]
    simpa using hempty

theorem components_append_trailer (h : IsTrailer trailer) (path : List UInt8) :
    components (path ++ trailer) = components path := by
  induction h generalizing path with
  | nil => rw [List.append_nil]
  | slash _ ih =>
    have hrest := ih []
    rw [List.nil_append] at hrest
    rw [components_append_slash, hrest]
    exact List.append_nil _
  | slashDot _ ih =>
    rw [components_append_slash, ih]
    exact List.append_nil _

/-- Behind a slash, what has no components is a trailer. -/
theorem isTrailer_of_components_eq_nil (h : components path = []) :
    IsTrailer (slash :: path) := by
  induction path using lines_induction slash with
  | unfinished rest hmem =>
    rw [components_of_not_mem hmem] at h
    split at h
    · rename_i hempty
      rcases hempty with rfl | rfl
      · exact .slash .nil
      · exact .slashDot .nil
    · contradiction
  | line before after hmem ih =>
    rw [components_append_slash, components_of_not_mem hmem, List.append_eq_nil_iff] at h
    have hafter := ih h.2
    split at h
    · rename_i hempty
      rcases hempty with rfl | rfl
      · exact .slash hafter
      · exact .slashDot hafter
    · simp at h

theorem IsLast.getLast?_components (h : IsLast path component) :
    (components path).getLast? = some component := by
  obtain ⟨front, trailer, rfl, hfront, htrailer⟩ := h.exists_eq
  have hone : components component = [component] := by
    rw [components_of_not_mem h.slash_not_mem, if_neg (not_or.mpr ⟨h.ne_nil, h.ne_here⟩)]
  rw [components_append_trailer htrailer]
  rcases hfront with rfl | ⟨parent, rfl⟩
  · rw [List.nil_append, hone]
    rfl
  · rw [List.append_assoc, List.singleton_append, components_append_slash, hone]
    exact List.getLast?_concat

theorem isLast_of_getLast? (h : (components path).getLast? = some component) :
    IsLast path component := by
  induction path using lines_induction slash with
  | unfinished rest hmem =>
    rw [components_of_not_mem hmem] at h
    split at h
    · contradiction
    · rename_i hempty
      obtain rfl : rest = component := by simpa using h
      rw [not_or] at hempty
      exact ⟨hempty.1, hempty.2, hmem, [], [], by simp, .inl rfl, .nil⟩
  | line before after hmem ih =>
    rw [components_append_slash] at h
    -- The last component stands before this slash if nothing but a trailer stands behind it.
    by_cases hafter : components after = []
    · rw [hafter, List.append_nil, components_of_not_mem hmem] at h
      split at h
      · contradiction
      · rename_i hempty
        obtain rfl : before = component := by simpa using h
        rw [not_or] at hempty
        exact ⟨hempty.1, hempty.2, hmem, [], slash :: after, by simp, .inl rfl,
          isTrailer_of_components_eq_nil hafter⟩
    · rw [List.getLast?_append_of_ne_nil _ hafter] at h
      obtain ⟨hnil, hhere, hslash, front, trailer, rfl, hfront, htrailer⟩ := ih h
      refine ⟨hnil, hhere, hslash, before ++ slash :: front, trailer, by simp, .inr ?_, htrailer⟩
      rcases hfront with rfl | ⟨parent, rfl⟩
      · exact ⟨before, rfl⟩
      · exact ⟨before ++ slash :: parent, by simp⟩

/-- The file name of a path is its last component, unless that leads to the directory above. -/
theorem fileName_eq_some_iff :
    fileName path = some component ↔ IsLast path component ∧ component ≠ above := by
  have hlast : (components path).getLast? = some component ↔ IsLast path component :=
    ⟨isLast_of_getLast?, IsLast.getLast?_components⟩
  rw [← hlast]
  unfold fileName
  cases (components path).getLast? with
  | none => simp
  | some last =>
    rw [Option.some_inj]
    by_cases habove : last = above
    · simp only [habove, beq_self_eq_true, if_true, reduceCtorEq, false_iff]
      exact fun h => h.2 h.1.symm
    · simp only [beq_iff_eq, habove, if_false, Option.some_inj]
      exact ⟨fun h => ⟨h, h ▸ habove⟩, fun h => h.1⟩

end UnixPath

/-- The lexer for maps serves the file names with the ending of maps. -/
theorem Registration.matchesFilename_ifm (filename : Text) :
    Registration.ifm.matchesFilename filename = true ↔ ".ifm".toList <:+ filename := by
  have hglob : "*.ifm".toList = '*' :: ".ifm".toList := by decide
  have haccepts : ifm.matchesFilename filename = Glob.accepts "*.ifm".toList filename :=
    Bool.or_false _
  rw [haccepts, Glob.accepts_iff, hglob]
  exact Glob.fits_star_of_plain (by decide) (by decide)

namespace Registry

variable {path : List UInt8}

/-- Whether the file at a path has the name of a map: the path has a last component other than the
one that leads above, and that is UTF-8 and ends as names of maps do. -/
def HasMapName (path : List UInt8) : Prop :=
  ∃ component, UnixPath.IsLast path component ∧ component ≠ UnixPath.above ∧
    ∃ name, component = Utf8.encode name ∧ ".ifm".toList <:+ name

theorem isSuffix_globName_iff : ".ifm".toList <:+ globName path ↔ HasMapName path := by
  unfold globName
  constructor
  · intro h
    split at h
    · rename_i name hname
      obtain ⟨component, hcomponent, hdecode⟩ := Option.map_eq_some_iff.mp hname
      obtain ⟨hlast, habove⟩ := UnixPath.fileName_eq_some_iff.mp hcomponent
      exact ⟨component, hlast, habove, name, Utf8.eq_encode_of_decode hdecode, h⟩
    · exact absurd (List.suffix_nil.mp h) (by decide)
  · rintro ⟨component, hlast, habove, name, rfl, hending⟩
    have hname := UnixPath.fileName_eq_some_iff.mpr ⟨hlast, habove⟩
    rwa [hname, Option.map_some, Utf8.decode_encode]

/-- There is one lexer to be found. -/
theorem findByFilename_eq (path : List UInt8) : findByFilename path =
    if Registration.ifm.matchesFilename (globName path) = true then .ok .ifm
    else .error (.unknownFilename (Utf8.decodeLossy path)) := by
  rw [findByFilename, find, all, List.find?_cons]
  split_ifs with h <;> simp [h]

/-- A lexer is found for the file at a path exactly if the path has a last component, slashes and
single dots behind it apart, that does not lead to the directory above, is UTF-8 and has the ending
of maps. Otherwise the whole path is reported, with its malformed bytes replaced. -/
theorem findByFilename_cases (path : List UInt8) :
    ((∃ registration, findByFilename path = .ok registration) ↔ HasMapName path) ∧
    (¬ HasMapName path → ∃ text, findByFilename path = .error (.unknownFilename text) ∧
      text = Utf8.decodeLossy path ∧ Utf8.ReadsLossily path text) := by
  rw [findByFilename_eq, ← isSuffix_globName_iff, ← Registration.matchesFilename_ifm]
  constructor
  · split_ifs with h <;> simp [h]
  · intro h
    rw [if_neg h]
    exact ⟨_, rfl, rfl, Utf8.readsLossily_decodeLossy path⟩

/-- A directory with the name of a map does not count, and neither does a name with a byte that
begins no character, which is reported as the replacement character. -/
theorem findByFilename_cases_of_malformed_name :
    let path := Utf8.encode "a.ifm/".toList ++ 0xFF :: Utf8.encode ".ifm/.".toList
    ¬ HasMapName path ∧
      findByFilename path = .error (.unknownFilename "a.ifm/\uFFFD.ifm/.".toList) := by
  intro path
  have hname : ¬ HasMapName path := by
    rw [← isSuffix_globName_iff]
    decide +kernel
  obtain ⟨text, hfind, htext, -⟩ := (findByFilename_cases path).2 hname
  have hlossy : Utf8.decodeLossy path = "a.ifm/\uFFFD.ifm/.".toList := by decide +kernel
  exact ⟨hname, by rw [hfind, htext, hlossy]⟩

end Registry

end MapHighlight
