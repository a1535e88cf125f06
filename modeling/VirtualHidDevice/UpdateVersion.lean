import VirtualHidDevice.TextLines
import VirtualHidDevice.Transition
import Mathlib.Data.List.AList

/-!
# Generating the files with version numbers

`scripts/update_version.py` replaces placeholders such as `@VERSION@` in each template and
stores the result beside it. An existing file is patched line by line, and written only if
a line differs.

* `FileTree` — the files below the top directory.
* `generate` — the body of the loop over the templates: what is written, if anything is.
* `content_none`, `content_some` — what a generated file holds afterwards, in terms of the
  template, the values and what it held before.
* `updateVersion` — the script; a file is read and written by its own template alone.
* `update_version_regenerates` — when a generated file is its template with all placeholders
  replaced, after one run and after two.
-/

namespace VirtualHidDevice

namespace UpdateVersion

open TextLines

/-! ## The script -/

/-- `version.json`. -/
structure Version where
  /-- `package_version` -/
  packageVersion : Text
  /-- `driver_version` -/
  driverVersion : Text
  /-- `client_protocol_version`, as `str` prints it -/
  clientProtocolVersion : Text

/-- `str` of a number. -/
def str (number : Int) : Text := (toString number).toList

section Numbers

variable (int : Text → Option Int)

/-- The loop over the parts of a version. What `int` makes of a part is a parameter, with
`none` for a `ValueError`. -/
def versionNumber (version : Text) : Option Int :=
  (version.splitOn '.').foldlM (fun number ver => (int ver).map fun n => number * 100 + n) 0

/-- The placeholders and their values, in the order in which they are replaced. -/
def placeholders (version : Version) : Option (List (Text × Text)) :=
  (versionNumber int version.packageVersion).bind fun number =>
    (versionNumber int version.driverVersion).map fun driverNumber =>
      [("@VERSION@".toList, version.packageVersion),
       ("@VERSION_NUMBER@".toList, str number),
       ("@DRIVER_VERSION@".toList, version.driverVersion),
       ("@DRIVER_VERSION_NUMBER@".toList, str driverNumber),
       ("@CLIENT_PROTOCOL_VERSION@".toList, version.clientProtocolVersion)]

end Numbers

/-- The text files below the top directory, by path. -/
abbrev FileTree := AList fun _ : Text => Text

/-- How the names of templates end. -/
def templateSuffixes : List Text := [".hpp.in".toList, ".plist.in".toList, ".xml.in".toList]

/-- The three `rglob`, chained. A file that the script creates is not a template, so it does
not matter when the files are listed. -/
def templates (tree : FileTree) : List Text :=
  templateSuffixes.flatMap fun suffix => tree.keys.filter fun path => suffix <:+ path

/-- `re.sub(r'\.in$', '', path)`. -/
def replacedFilePath (path : Text) : Text :=
  if ".in".toList <:+ path then path.take (path.length - 3) else path

section Generate

variable (values : List (Text × Text))

/-- One round of the loop over the lines: `needs_update` and `replaced_lines`. Without a file
to patch, `replaced_lines` and `template_lines` are one and the same list. -/
def patchLine (templateLines : Option (List Text)) (s : Bool × List Text) (index : ℕ) :
    Bool × List Text :=
  let line := replaceAll values (((templateLines.getD s.2)[index]?).getD [])
  if s.2[index]? = some line then s else (true, s.2.set index line)

/-- The loop over the lines of the template. -/
def patchLines (count : ℕ) (templateLines : Option (List Text)) (lines : List Text) :
    Bool × List Text :=
  (List.range count).foldl (patchLine values templateLines) (false, lines)

/-- What is written for a template, given what the generated file holds. -/
def generate (template : Text) (old : Option Text) : Option Text :=
  let templateLines := readlines (universalNewlines template)
  let patched := match old with
    | some old => patchLines values templateLines.length (some templateLines)
        ((readlines (universalNewlines old)).rightpad templateLines.length [])
    | none => patchLines values templateLines.length none templateLines
  if patched.1 then some patched.2.flatten else none

/-- The body of the loop over the templates, `none` if the template cannot be read. -/
def updateTemplate (tree : FileTree) (path : Text) : Option FileTree :=
  (tree.lookup path).map fun template =>
    match generate values template (tree.lookup (replacedFilePath path)) with
    | none => tree
    | some content => tree.insert (replacedFilePath path) content

end Generate

/-- `update_version()`, `none` if it ends with an exception. -/
def updateVersion (int : Text → Option Int) (version : Version) (tree : FileTree) :
    Option FileTree :=
  (placeholders int version).bind fun values =>
    (templates tree).foldlM (updateTemplate values) tree

/-! ## What a generated file holds -/

/-- The template with every placeholder replaced. -/
def substituted (values : List (Text × Text)) (template : Text) : Text :=
  replaceAll values (universalNewlines template)

/-- The lines of a template. -/
def templateLines (template : Text) : List Text := readlines (universalNewlines template)

/-- What the generated file holds after a run. -/
def content (values : List (Text × Text)) (template : Text) (old : Option Text) : Option Text :=
  (generate values template old).or old

section Content

variable {values : List (Text × Text)}

/-- After some rounds the lines so far are those of the template, replaced, and the others are
as they were; there is something to update if one of them was different. -/
theorem foldl_patchLine (values : List (Text × Text)) {lines source : List Text}
    {aliased : Option (List Text)}
    (hsource : aliased = some source ∨ aliased = none ∧ lines = source)
    (hlength : source.length ≤ lines.length) (k : ℕ) (hk : k ≤ source.length) :
    (List.range k).foldl (patchLine values aliased) (false, lines) =
      (decide (lines.take k ≠ (source.take k).map (replaceAll values)),
        (source.take k).map (replaceAll values) ++ lines.drop k) := by
  induction k with
  | zero => simp
  | succ k ih =>
    obtain ⟨line, rest, hdrop⟩ : ∃ line rest, lines.drop k = line :: rest := by
      rcases hd : lines.drop k with _ | ⟨line, rest⟩
      · have := List.drop_eq_nil_iff.mp hd
        omega
      · exact ⟨line, rest, rfl⟩
    obtain ⟨template, htemplate⟩ : ∃ template, source[k]? = some template :=
      ⟨_, List.getElem?_eq_getElem (by omega)⟩
    have hdone : ((source.take k).map (replaceAll values)).length = k := by
      rw [List.length_map, List.length_take]
      omega
    have hline : lines[k]? = some line := by
      rw [← List.head?_drop, hdrop]
      rfl
    have hrest : lines.drop (k + 1) = rest := by
      rw [← List.drop_drop, hdrop]
      rfl
    -- the line at the index has not been written yet, so the alias reads the template
    have hread : ((aliased.getD ((source.take k).map (replaceAll values) ++ lines.drop k))[k]?).getD
        [] = template := by
      rcases hsource with rfl | ⟨rfl, rfl⟩
      · rw [Option.getD_some, htemplate]
        rfl
      · rw [Option.getD_none, List.getElem?_append_right (Nat.le_of_eq hdone), hdone, Nat.sub_self,
          List.getElem?_drop, Nat.add_zero, htemplate]
        rfl
    have hthere : ((source.take k).map (replaceAll values) ++ lines.drop k)[k]? = some line := by
      rw [List.getElem?_append_right (Nat.le_of_eq hdone), hdone, Nat.sub_self, hdrop]
      rfl
    rw [List.range_succ, List.foldl_append, ih (by omega), List.foldl_cons, List.foldl_nil,
      patchLine]
    simp only [hread, hthere]
    have hnow : (source.take (k + 1)).map (replaceAll values) =
        (source.take k).map (replaceAll values) ++ [replaceAll values template] := by
      rw [List.take_add_one, htemplate, List.map_append]
      rfl
    have hbefore : lines.take (k + 1) = lines.take k ++ [line] := by
      rw [List.take_add_one, hline]
      rfl
    rw [hnow, hbefore, hrest, hdrop, List.append_assoc, List.singleton_append]
    by_cases hsame : line = replaceAll values template
    · rw [if_pos (congrArg some hsame), hsame]
      simp
    · rw [if_neg (fun h => hsame (Option.some.inj h)),
        List.set_append_right _ _ (Nat.le_of_eq hdone),
        hdone, Nat.sub_self, List.set_cons_zero]
      simp [hsame]

/-- The loop, from a list that is as long as the template or longer. -/
theorem patchLines_eq (values : List (Text × Text)) {lines source : List Text}
    {aliased : Option (List Text)}
    (hsource : aliased = some source ∨ aliased = none ∧ lines = source)
    (hlength : source.length ≤ lines.length) :
    patchLines values source.length aliased lines =
      (decide (lines.take source.length ≠ source.map (replaceAll values)),
        source.map (replaceAll values) ++ lines.drop source.length) := by
  have h := foldl_patchLine values hsource hlength source.length (Nat.le_refl _)
  rw [List.take_length] at h
  exact h

/-- A file that was not there is created if some line of the template changes. -/
theorem content_none (hwords : ∀ value ∈ values, IsWord value.1) (template : Text) :
    content values template none =
      if (templateLines template).map (replaceAll values) = templateLines template then none
      else some (substituted values template) := by
  have hpatch := patchLines_eq values (.inr ⟨rfl, rfl⟩)
    (Nat.le_refl (templateLines template).length)
  rw [List.take_length, List.drop_length, List.append_nil] at hpatch
  rw [content, Option.or_none, generate]
  simp only [← templateLines.eq_1, hpatch]
  by_cases hsame : templateLines template = (templateLines template).map (replaceAll values)
  · rw [if_neg (by simpa using hsame), if_pos hsame.symm]
  · rw [if_pos (by simpa using hsame), if_neg (Ne.symm hsame), templateLines,
      replaceAll_eq_flatten hwords, substituted]

/-- Padding adds nothing behind the lines of the template. -/
theorem drop_rightpad (lines : List Text) (n : ℕ) :
    (lines.rightpad n []).drop n = lines.drop n := by
  rw [List.rightpad, List.drop_append, List.drop_replicate, Nat.sub_self, List.replicate_zero,
    List.append_nil]

/-- A file that was there keeps its lines behind those of the template, and is not touched if
the others are right. -/
theorem content_some (hwords : ∀ value ∈ values, IsWord value.1) (template old : Text) :
    content values template (some old) = some
      (if ((templateLines old).rightpad (templateLines template).length []).take
          (templateLines template).length = (templateLines template).map (replaceAll values)
      then old
      else substituted values template ++
        ((templateLines old).drop (templateLines template).length).flatten) := by
  have hlength : (templateLines template).length ≤
      ((templateLines old).rightpad (templateLines template).length []).length := by
    rw [List.rightpad, List.length_append, List.length_replicate]
    omega
  have hpatch := patchLines_eq values (.inl rfl) hlength
  rw [content, generate]
  simp only [← templateLines.eq_1, hpatch, drop_rightpad]
  split
  next hneeds =>
    rw [if_neg (of_decide_eq_true hneeds), List.flatten_append, templateLines,
      replaceAll_eq_flatten hwords, Option.some_or, substituted]
  next hneeds =>
    have hright := of_decide_eq_false (Bool.eq_false_iff.mpr hneeds)
    rw [if_pos (not_not.mp hright), Option.none_or]

/-- What the generated file may hold before a run: nothing, if some line of the template
changes; or no more lines than the template has, and not what it should hold with other
line ends. -/
def Replaceable (values : List (Text × Text)) (template : Text) : Option Text → Prop
  | none => ∃ line ∈ templateLines template, replaceAll values line ≠ line
  | some old => (templateLines old).length ≤ (templateLines template).length ∧
      ((templateLines old).rightpad (templateLines template).length [] =
        (templateLines template).map (replaceAll values) → old = substituted values template)

/-- A file with more lines than the template never becomes what it should be. -/
theorem flatten_drop_ne_nil {template old : Text}
    (h : (templateLines template).length < (templateLines old).length) :
    ((templateLines old).drop (templateLines template).length).flatten ≠ [] := by
  intro hnil
  exact Nat.not_le.mpr h ((flatten_drop_readlines _ _).mp hnil)

/-- When a run makes the file what it should be. -/
theorem content_eq_substituted_iff (hwords : ∀ value ∈ values, IsWord value.1) (template : Text)
    (old : Option Text) :
    content values template old = some (substituted values template) ↔
      Replaceable values template old := by
  cases old with
  | none =>
    have hmap : (templateLines template).map (replaceAll values) = templateLines template ↔
        ∀ line ∈ templateLines template, replaceAll values line = line := by
      have h := List.map_inj_left (l := templateLines template) (f := replaceAll values) (g := id)
      rwa [List.map_id] at h
    rw [content_none hwords, Replaceable]
    by_cases hsame : ∀ line ∈ templateLines template, replaceAll values line = line
    · rw [if_pos (hmap.mpr hsame)]
      refine ⟨fun h => (by cases h), ?_⟩
      rintro ⟨line, hmem, hne⟩
      exact absurd (hsame line hmem) hne
    · rw [if_neg (fun h => hsame (hmap.mp h))]
      refine ⟨fun _ => ?_, fun _ => rfl⟩
      simpa only [not_forall, exists_prop] using hsame
  | some old =>
    rw [content_some hwords, Option.some.injEq, Replaceable]
    rcases Nat.lt_or_ge (templateLines template).length (templateLines old).length with
      hlong | hshort
    · -- the lines behind those of the template stay
      have hmore := flatten_drop_ne_nil hlong
      refine iff_of_false ?_ (fun h => absurd h.1 (Nat.not_le.mpr hlong))
      split
      next hright =>
        intro hold
        have hpad : (templateLines old).rightpad (templateLines template).length [] =
            templateLines old := by
          rw [List.rightpad, Nat.sub_eq_zero_of_le (Nat.le_of_lt hlong), List.replicate_zero,
            List.append_nil]
        rw [hpad] at hright
        have hlines : universalNewlines old = substituted values template ++
            ((templateLines old).drop (templateLines template).length).flatten := by
          have hflat := flatten_readlines (universalNewlines old)
          rw [← templateLines, ← List.take_append_drop (templateLines template).length
            (templateLines old), List.flatten_append, hright, templateLines,
            replaceAll_eq_flatten hwords] at hflat
          exact hflat.symm
        have hle := universalNewlines_length_le old
        have hpos := List.length_pos_iff.mpr hmore
        rw [hlines, List.length_append, ← hold] at hle
        omega
      next =>
        intro happend
        exact hmore (List.append_right_eq_self.mp happend)
    · have hpad : ((templateLines old).rightpad (templateLines template).length []).take
          (templateLines template).length =
          (templateLines old).rightpad (templateLines template).length [] := by
        refine List.take_of_length_le ?_
        rw [List.rightpad, List.length_append, List.length_replicate]
        omega
      rw [hpad, List.drop_of_length_le hshort, List.flatten_nil, List.append_nil]
      split
      next hright => exact ⟨fun h => ⟨hshort, fun _ => h⟩, fun h => h.2 hright⟩
      next hwrong => exact iff_of_true rfl ⟨hshort, fun h => absurd h hwrong⟩

end Content

/-! ## The files of a run -/

/-- The name of a template. -/
def IsTemplate (path : Text) : Prop := ∃ suffix ∈ templateSuffixes, suffix <:+ path

theorem mem_templates {tree : FileTree} {path : Text} :
    path ∈ templates tree ↔ path ∈ tree.keys ∧ IsTemplate path := by
  simp only [templates, List.mem_flatMap, List.mem_filter, decide_eq_true_eq, IsTemplate]
  constructor
  · rintro ⟨suffix, hsuffix, hkey, hpath⟩
    exact ⟨hkey, suffix, hsuffix, hpath⟩
  · rintro ⟨hkey, suffix, hsuffix, hpath⟩
    exact ⟨suffix, hsuffix, hkey, hpath⟩

/-- A template is named like the generated file, with `.in` behind; and the name of the
generated file does not end like that. -/
theorem IsTemplate.eq_append {path : Text} (h : IsTemplate path) :
    ∃ name, path = name ++ ".in".toList ∧ name.getLast? ≠ some 'n' := by
  obtain ⟨suffix, hsuffix, stem, rfl⟩ := h
  simp only [templateSuffixes, List.mem_cons, List.not_mem_nil, or_false] at hsuffix
  rcases hsuffix with rfl | rfl | rfl
  · exact ⟨stem ++ ".hpp".toList, by simp, by simp⟩
  · exact ⟨stem ++ ".plist".toList, by simp, by simp⟩
  · exact ⟨stem ++ ".xml".toList, by simp, by simp⟩

theorem replacedFilePath_append (name : Text) : replacedFilePath (name ++ ".in".toList) = name := by
  rw [replacedFilePath, if_pos (List.suffix_append _ _)]
  simp

theorem replacedFilePath_injective {path path' : Text} (h : IsTemplate path)
    (h' : IsTemplate path') (heq : replacedFilePath path = replacedFilePath path') :
    path = path' := by
  obtain ⟨name, rfl, -⟩ := h.eq_append
  obtain ⟨name', rfl, -⟩ := h'.eq_append
  rw [replacedFilePath_append, replacedFilePath_append] at heq
  rw [heq]

/-- A generated file is not a template. -/
theorem not_isTemplate_replacedFilePath {path : Text} (h : IsTemplate path) :
    ¬ IsTemplate (replacedFilePath path) := by
  obtain ⟨name, rfl, hlast⟩ := h.eq_append
  rw [replacedFilePath_append]
  intro hname
  obtain ⟨name', rfl, -⟩ := hname.eq_append
  exact hlast (by simp)

/-- Each template is listed once. -/
theorem nodup_templates (tree : FileTree) : (templates tree).Nodup := by
  have hfilter : ∀ suffix : Text, (tree.keys.filter fun path => suffix <:+ path).Nodup :=
    fun suffix => tree.keys_nodup.filter _
  rw [templates, List.nodup_flatMap]
  refine ⟨fun suffix _ => hfilter suffix, ?_⟩
  -- no two of the suffixes end the same name, since none of them ends another one
  have hends : templateSuffixes.Pairwise fun a b => ¬ a <:+ b ∧ ¬ b <:+ a := by decide
  refine hends.imp fun {a b} hab path ha hb => ?_
  have hpa := of_decide_eq_true (List.mem_filter.mp ha).2
  have hpb := of_decide_eq_true (List.mem_filter.mp hb).2
  rcases List.suffix_or_suffix_of_suffix hpa hpb with h | h
  · exact hab.1 h
  · exact hab.2 h

/-- Writing a generated file does not change the templates. -/
theorem templates_insert (tree : FileTree) {path : Text} (h : ¬ IsTemplate path) (text : Text) :
    templates (tree.insert path text) = templates tree := by
  rw [templates, templates]
  refine List.flatMap_congr fun suffix hsuffix => ?_
  have hpath : ¬ suffix <:+ path := fun hp => h ⟨suffix, hsuffix, hp⟩
  rw [AList.keys_insert, List.filter_cons_of_neg (by simpa using hpath),
    @List.Nodup.erase_eq_filter _ instBEqOfDecidableEq _ _ tree.keys_nodup, List.filter_filter]
  refine List.filter_congr fun key _ => ?_
  by_cases hkey : key = path
  · rw [hkey]
    simp [hpath]
  · simp [hkey]

/-- One template: its generated file gets its content, and no other file changes. -/
theorem updateTemplate_spec (values : List (Text × Text)) {tree : FileTree}
    {path template : Text} (hpath : IsTemplate path)
    (htemplate : tree.lookup path = some template) :
    ∃ tree', updateTemplate values tree path = some tree' ∧
      tree'.lookup (replacedFilePath path) =
        content values template (tree.lookup (replacedFilePath path)) ∧
      (∀ other, other ≠ replacedFilePath path → tree'.lookup other = tree.lookup other) ∧
      templates tree' = templates tree := by
  rw [updateTemplate, htemplate, Option.map_some, content]
  rcases generate values template (tree.lookup (replacedFilePath path)) with _ | text
  · exact ⟨tree, rfl, rfl, fun _ _ => rfl, rfl⟩
  · exact ⟨_, rfl, AList.lookup_insert _, fun other hother => AList.lookup_insert_ne hother,
      templates_insert tree (not_isTemplate_replacedFilePath hpath) text⟩

/-- All templates: each generated file gets its content. -/
theorem foldlM_updateTemplate (values : List (Text × Text)) (paths : List Text)
    (tree : FileTree) (hnodup : paths.Nodup) (hpaths : ∀ path ∈ paths, path ∈ templates tree) :
    ∃ tree', paths.foldlM (updateTemplate values) tree = some tree' ∧
      (∀ path ∈ paths, ∀ template, tree.lookup path = some template →
        tree'.lookup (replacedFilePath path) =
          content values template (tree.lookup (replacedFilePath path))) ∧
      (∀ other, (∀ path ∈ paths, other ≠ replacedFilePath path) →
        tree'.lookup other = tree.lookup other) ∧
      templates tree' = templates tree := by
  induction paths generalizing tree with
  | nil => exact ⟨tree, rfl, fun _ h => (by cases h), fun _ _ => rfl, rfl⟩
  | cons path paths ih =>
    obtain ⟨hnew, hnodup⟩ := List.nodup_cons.mp hnodup
    obtain ⟨hkey, hpath⟩ := mem_templates.mp (hpaths path List.mem_cons_self)
    obtain ⟨template, htemplate⟩ := Option.isSome_iff_exists.mp
      (AList.lookup_isSome.mpr (AList.mem_keys.mpr hkey))
    obtain ⟨tree₁, hfirst, hcontent, hother, hsame⟩ :=
      updateTemplate_spec values hpath htemplate
    obtain ⟨tree', hrest, hcontents, hothers, hsame'⟩ := ih tree₁ hnodup fun p hp => by
      rw [hsame]
      exact hpaths p (List.mem_cons_of_mem _ hp)
    refine ⟨tree', ?_, ?_, ?_, hsame'.trans hsame⟩
    · rw [List.foldlM_cons, hfirst]
      exact hrest
    · intro p hp text htext
      rcases List.mem_cons.mp hp with rfl | hp
      · -- the other templates write other files
        rw [htemplate] at htext
        obtain rfl := Option.some.inj htext
        rw [hothers, hcontent]
        intro q hq heq
        have hq' := (mem_templates.mp (hpaths q (List.mem_cons_of_mem _ hq))).2
        rw [replacedFilePath_injective hpath hq' heq] at hnew
        exact hnew hq
      · have hp' := (mem_templates.mp (hpaths p (List.mem_cons_of_mem _ hp))).2
        have htree : tree₁.lookup p = some text := by
          rw [hother, htext]
          rintro rfl
          exact not_isTemplate_replacedFilePath hpath hp'
        rw [hcontents p hp text htree, hother]
        intro heq
        rw [replacedFilePath_injective hp' hpath heq] at hp
        exact hnew hp
    · intro other hne
      rw [hothers other fun p hp => hne p (List.mem_cons_of_mem _ hp),
        hother other (hne path List.mem_cons_self)]

/-- The placeholders are words. -/
theorem isWord_of_mem_placeholders {int : Text → Option Int} {version : Version}
    {values : List (Text × Text)} (h : placeholders int version = some values) :
    ∀ value ∈ values, IsWord value.1 := by
  obtain ⟨number, -, h⟩ := Option.bind_eq_some_iff.mp h
  obtain ⟨driverNumber, -, rfl⟩ := Option.map_eq_some_iff.mp h
  intro value hvalue
  simp only [List.mem_cons, List.not_mem_nil, or_false] at hvalue
  rcases hvalue with rfl | rfl | rfl | rfl | rfl <;> exact ⟨by simp, by simp⟩

/-- A run gives each generated file its content, and leaves the templates alone. -/
theorem updateVersion_spec {int : Text → Option Int} {version : Version}
    {values : List (Text × Text)} (hvalues : placeholders int version = some values)
    (tree : FileTree) :
    ∃ tree', updateVersion int version tree = some tree' ∧ templates tree' = templates tree ∧
      ∀ path ∈ templates tree, ∀ template, tree.lookup path = some template →
        tree'.lookup path = some template ∧ tree'.lookup (replacedFilePath path) =
          content values template (tree.lookup (replacedFilePath path)) := by
  obtain ⟨tree', hrun, hcontents, hothers, hsame⟩ := foldlM_updateTemplate values
    (templates tree) tree (nodup_templates tree) fun _ h => h
  refine ⟨tree', ?_, hsame, fun path hpath template htemplate => ⟨?_, ?_⟩⟩
  · rw [updateVersion, hvalues]
    exact hrun
  · rw [hothers, htemplate]
    rintro q hq rfl
    exact not_isTemplate_replacedFilePath (mem_templates.mp hq).2 (mem_templates.mp hpath).2
  · exact hcontents path hpath template htemplate

/-- The generated file of a template is the template with every placeholder replaced, and a
second run leaves it so. -/
def Regenerates (int : Text → Option Int) (version : Version) (values : List (Text × Text))
    (tree : FileTree) (path template : Text) : Prop :=
  ∃ tree' tree'', updateVersion int version tree = some tree' ∧
    updateVersion int version tree' = some tree'' ∧
    tree'.lookup (replacedFilePath path) = some (substituted values template) ∧
    tree''.lookup (replacedFilePath path) = tree'.lookup (replacedFilePath path)

end UpdateVersion

open UpdateVersion in
/-- A template is regenerated exactly if its generated file could be replaced, and the
replaced template has no more lines than the template. -/
theorem update_version_regenerates (int : TextLines.Text → Option Int) (version : Version)
    (values : List (TextLines.Text × TextLines.Text))
    (hvalues : placeholders int version = some values) (tree : FileTree)
    (path template : TextLines.Text) (hpath : path ∈ templates tree)
    (htemplate : tree.lookup path = some template) :
    Regenerates int version values tree path template ↔
      Replaceable values template (tree.lookup (replacedFilePath path)) ∧
      (templateLines (substituted values template)).length ≤ (templateLines template).length := by
  have hwords := isWord_of_mem_placeholders hvalues
  obtain ⟨tree', hrun, hsame, hfirst⟩ := updateVersion_spec hvalues tree
  obtain ⟨tree'', hrun', -, hsecond⟩ := updateVersion_spec hvalues tree'
  obtain ⟨htemplate', hcontent⟩ := hfirst path hpath template htemplate
  obtain ⟨-, hcontent'⟩ := hsecond path (hsame ▸ hpath) template htemplate'
  -- the second run starts from the file that the first one left
  have hagain : Replaceable values template (some (substituted values template)) ↔
      (templateLines (substituted values template)).length ≤ (templateLines template).length :=
    and_iff_left fun _ => rfl
  rw [← hagain, ← content_eq_substituted_iff hwords, ← content_eq_substituted_iff hwords,
    ← hcontent]
  constructor
  · rintro ⟨tree₁, tree₂, h₁, h₂, hgenerated, hstays⟩
    rw [hrun] at h₁
    obtain rfl := Option.some.inj h₁
    rw [hrun'] at h₂
    obtain rfl := Option.some.inj h₂
    refine ⟨hgenerated, ?_⟩
    rw [← hgenerated, ← hcontent', hstays]
  · rintro ⟨hgenerated, hstays⟩
    refine ⟨tree', tree'', hrun, hrun', hgenerated, ?_⟩
    rw [hcontent', hgenerated, hstays]

namespace UpdateVersion

open TextLines

/-- `int` of a string of digits. -/
def decimal (text : Text) : Option Int :=
  if text ≠ [] ∧ text.all Char.isDigit then
    some (text.foldl (fun n c => n * 10 + (c.toNat - '0'.toNat : ℕ)) 0)
  else none

/-- A `version.json`. -/
def release : Version := ⟨"7.3.0".toList, "1.8.0".toList, "7".toList⟩

/-- The values of its placeholders. -/
def releaseValues : List (Text × Text) :=
  [("@VERSION@".toList, "7.3.0".toList), ("@VERSION_NUMBER@".toList, "70300".toList),
   ("@DRIVER_VERSION@".toList, "1.8.0".toList), ("@DRIVER_VERSION_NUMBER@".toList, "10800".toList),
   ("@CLIENT_PROTOCOL_VERSION@".toList, "7".toList)]

/-- A template, and what its generated file holds. -/
def oneTemplate (template : String) (old : Option String) : FileTree :=
  (⟨"version.hpp.in".toList, template.toList⟩ ::
    (old.map fun old => ⟨"version.hpp".toList, old.toList⟩).toList).toAList

end UpdateVersion

open UpdateVersion in
/-- A template with a placeholder, and no generated file. -/
theorem new_version_header_regenerates :
    Regenerates decimal release releaseValues (oneTemplate "#define V @VERSION@\n" none)
      "version.hpp.in".toList "#define V @VERSION@\n".toList := by
  refine (update_version_regenerates decimal release releaseValues (by decide +kernel)
    (oneTemplate "#define V @VERSION@\n" none) "version.hpp.in".toList
    "#define V @VERSION@\n".toList (by decide +kernel) (by decide +kernel)).mpr ⟨?_, ?_⟩
  · exact ⟨"#define V @VERSION@\n".toList, by decide +kernel, by decide +kernel⟩
  · decide +kernel

open UpdateVersion in
/-- A generated file with more lines than its template keeps the last ones, also when the
others are updated; and without a placeholder no file is created. -/
theorem longer_file_not_regenerated :
    (∃ tree, updateVersion decimal release
        (oneTemplate "V @VERSION@\n" (some "V 7.2.0\nold\n")) = some tree ∧
      tree.lookup "version.hpp".toList = some "V 7.3.0\nold\n".toList) ∧
    (∃ tree, updateVersion decimal release (oneTemplate "V\n" none) = some tree ∧
      tree.lookup "version.hpp".toList = none) ∧
    substituted releaseValues "V @VERSION@\n".toList = "V 7.3.0\n".toList ∧
    ¬ Regenerates decimal release releaseValues
      (oneTemplate "V @VERSION@\n" (some "V 7.2.0\nold\n")) "version.hpp.in".toList
      "V @VERSION@\n".toList := by
  have hlonger : ∃ tree, updateVersion decimal release
      (oneTemplate "V @VERSION@\n" (some "V 7.2.0\nold\n")) = some tree ∧
      tree.lookup "version.hpp".toList = some "V 7.3.0\nold\n".toList := by
    decide +kernel
  have hsubstituted : substituted releaseValues "V @VERSION@\n".toList =
      "V 7.3.0\n".toList := by
    decide +kernel
  refine ⟨hlonger, by decide +kernel, hsubstituted, ?_⟩
  rintro ⟨tree', tree'', hrun, -, hcontent, -⟩
  obtain ⟨tree, hrun', hlookup⟩ := hlonger
  rw [hrun] at hrun'
  obtain rfl := Option.some.inj hrun'
  have hpath : replacedFilePath "version.hpp.in".toList = "version.hpp".toList := by
    decide +kernel
  rw [hpath, hlookup, hsubstituted] at hcontent
  exact absurd hcontent (by decide +kernel)

end VirtualHidDevice
