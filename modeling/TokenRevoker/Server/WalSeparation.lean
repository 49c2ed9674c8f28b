import TokenRevoker.Server.WalDirectory

/-! The logs in one directory do not mix. Id and generation can be read off a file name in
one way only, so no log lists, reads or deletes what another one has written. -/
namespace TokenRevoker

open Text Transition SharedStore

namespace RevokerId

variable {id other : RevokerId} {generation generation' : Nat} {name : JsString}

/-- What stands between a prefix and a suffix that do not overlap. -/
theorem eq_append_slice {start stop : JsString} (hStart : start <+: name) (hStop : stop <:+ name)
    (hPart : slice name start.length (name.length - stop.length) ≠ []) :
    name = start ++ slice name start.length (name.length - stop.length) ++ stop := by
  obtain ⟨front, rfl⟩ := hStop
  have hLength : (front ++ stop).length - stop.length = front.length := by simp
  rw [slice, hLength, List.take_left] at hPart ⊢
  have hLe : start.length ≤ front.length := by
    by_contra hLt
    exact hPart (List.drop_eq_nil_of_le (by omega))
  obtain ⟨middle, rfl⟩ := List.prefix_of_prefix_length_le hStart (List.prefix_append front stop) hLe
  rw [List.drop_left]

/-- A name that a log takes for its own. -/
theorem eq_of_generationOf (h : id.generationOf name = some generation) :
    ∃ part, name = id.filePrefix ++ part ++ walSuffix ∧ part ≠ [] ∧ (∀ unit ∈ part, isDigit unit = true) ∧
      digitsValue part 0 = generation := by
  dsimp only [generationOf] at h
  split_ifs at h with hEnds hPart
  simp only [Bool.or_eq_true, Bool.not_eq_true', not_or, Bool.not_eq_false, List.isPrefixOf_iff_prefix,
    List.isSuffixOf_iff_suffix] at hEnds
  simp only [Bool.or_eq_true, Bool.not_eq_true', not_or, Bool.not_eq_false, List.all_eq_true,
    decide_eq_true_eq] at hPart
  exact ⟨_, eq_append_slice hEnds.1 hEnds.2 hPart.1, hPart.1, hPart.2, Option.some.inj h⟩

/-- A log reads its own names back. -/
theorem generationOf_fileName (id : RevokerId) (generation : Nat) :
    id.generationOf (id.fileName generation) = some generation := by
  have hPrefix : id.filePrefix <+: id.fileName generation := by
    rw [fileName, List.append_assoc]
    exact List.prefix_append _ _
  have hSuffix : walSuffix <:+ id.fileName generation := List.suffix_append _ _
  have hPart : slice (id.fileName generation) id.filePrefix.length
      ((id.fileName generation).length - walSuffix.length) = decimal generation := by
    have hLength : (id.fileName generation).length - walSuffix.length =
        (id.filePrefix ++ decimal generation).length := by
      rw [fileName, List.length_append, Nat.add_sub_cancel]
    rw [slice, hLength, fileName, List.take_left, List.drop_left]
  have hDigits : (decimal generation).all isDigit = true :=
    List.all_eq_true.mpr fun unit hUnit => isDigit_of_mem_decimal hUnit
  simp [generationOf, List.isPrefixOf_iff_prefix.mpr hPrefix, List.isSuffixOf_iff_suffix.mpr hSuffix, hPart,
    hDigits, decimal_ne_nil, digitsValue_decimal]

/-- It takes no name of another log for its own, whatever hyphens and digits the ids have:
the last hyphen of a name stands in front of the generation. -/
theorem eq_of_generationOf_fileName (h : id.generationOf (other.fileName generation) = some generation') :
    other = id := by
  have hHyphen : ∀ {part : JsString}, (∀ unit ∈ part, isDigit unit = true) → hyphen ∉ part :=
    fun hDigits hMem => absurd (hDigits _ hMem) (by decide)
  obtain ⟨part, hName, -, hDigits, -⟩ := eq_of_generationOf h
  have hMiddle : other.text ++ hyphen :: decimal generation = id.text ++ hyphen :: part := by
    rw [fileName] at hName
    have hBody := List.append_cancel_right hName
    simp only [filePrefix, List.append_assoc] at hBody
    exact List.append_cancel_left hBody
  obtain ⟨hText, -⟩ := append_last_separator_inj (hHyphen fun unit hUnit => isDigit_of_mem_decimal hUnit)
    (hHyphen hDigits) hMiddle
  cases id
  cases other
  simpa using hText

/-- File names as the names of a shared store. -/
def naming : Naming RevokerId JsString where
  name := fileName
  read := generationOf
  read_name := generationOf_fileName
  owner_of_read := eq_of_generationOf_fileName

theorem fileName_inj (h : id.fileName generation = other.fileName generation') :
    id = other ∧ generation = generation' :=
  naming.name_inj h

theorem listGenerationFiles_some (id : RevokerId) (names : List JsString) :
    id.listGenerationFiles (some names) = naming.listing id names := rfl

/-- A name with another ending is no file of a log. -/
theorem foreign_of_not_wal (h : ¬ walSuffix <:+ name) : naming.Foreign name := by
  intro id
  have hSuffix : walSuffix.isSuffixOf name = false := by
    rw [← Bool.not_eq_true, List.isSuffixOf_iff_suffix]
    exact h
  show id.generationOf name = none
  simp [generationOf, hSuffix]

/-- The files of the coordinators that are beside the logs. -/
theorem foreign_metaFiles (id : RevokerId) :
    naming.Foreign id.metaFileName ∧ naming.Foreign id.metaTmpName := by
  have hForeign : ∀ {front suffix : JsString}, suffix.getLast? = some 0x6E ∨ suffix.getLast? = some 0x70 →
      naming.Foreign (front ++ suffix) := by
    intro front suffix hLast
    refine foreign_of_not_wal fun ⟨before, hEq⟩ => ?_
    have hLasts := congrArg List.getLast? hEq
    rcases hLast with hLast | hLast <;> simp [List.getLast?_append, hLast, walSuffix] at hLasts
  exact ⟨hForeign (Or.inl rfl), hForeign (Or.inr rfl)⟩

end RevokerId

namespace WalDirectory

variable {id other : RevokerId} {answers : DiskAnswers} {s t u : WalDirectory} {operation : Operation}
  {file : Nat × JsString} {files : List (Nat × JsString)}

/-- `readdirSync` lists the files of the directory, in any order, or throws. -/
def Lists (s : WalDirectory) (answers : DiskAnswers) : Prop :=
  ∀ names, answers.readdir = some names → names.Perm s.files.keys

/-- The steps of everything that has to do with the directory. Besides the logs, other
programs write and remove files that belong to no log. -/
inductive Action where
  | call (id : RevokerId) (answers : DiskAnswers) (operation : Operation)
  | write (name : JsString) (content : Bytes)
  | remove (name : JsString)

inductive Step : WalDirectory → Action → WalDirectory → Prop where
  | call {s : WalDirectory} (id : RevokerId) {answers : DiskAnswers} (operation : Operation)
      (hLists : s.Lists answers) : Step s (.call id answers operation) (s.perform id answers operation)
  | write {s : WalDirectory} {name : JsString} (content : Bytes) (hForeign : RevokerId.naming.Foreign name) :
      Step s (.write name content) { s with files := s.files.insert name content }
  | remove {s : WalDirectory} {name : JsString} (hForeign : RevokerId.naming.Foreign name) :
      Step s (.remove name) { s with files := s.files.erase name }

/-- Every file was made by a log, or belongs to none. -/
def Regular (s : WalDirectory) : Prop := RevokerId.naming.Regular s.files.keys

/-- What a log does to the directory: it touches files of its own alone. -/
structure Confined (id : RevokerId) (s t : WalDirectory) : Prop where
  dir : t.dir = s.dir
  regular : s.Regular → t.Regular
  frame : ∀ name, (∀ generation, name ≠ id.fileName generation) → t.files.lookup name = s.files.lookup name
  logs : ∀ other, other ≠ id → t.logs other = s.logs other
  accesses : ∃ new, t.accesses = s.accesses ++ new ∧
    ∀ entry ∈ new, entry.1 = id ∧ ∃ generation, entry.2.name = id.fileName generation

namespace Confined

theorem refl (id : RevokerId) (s : WalDirectory) : Confined id s s :=
  ⟨rfl, fun h => h, fun _ _ => rfl, fun _ _ => rfl, [], by simp, by simp⟩

theorem trans (h : Confined id s t) (h' : Confined id t u) : Confined id s u := by
  obtain ⟨new, hNew, hOwn⟩ := h.accesses
  obtain ⟨new', hNew', hOwn'⟩ := h'.accesses
  refine ⟨h'.dir.trans h.dir, fun hRegular => h'.regular (h.regular hRegular),
    fun name hName => (h'.frame name hName).trans (h.frame name hName),
    fun other hOther => (h'.logs other hOther).trans (h.logs other hOther), new ++ new', ?_, ?_⟩
  · rw [hNew', hNew, List.append_assoc]
  · intro entry hEntry
    exact (List.mem_append.mp hEntry).elim (hOwn entry) (hOwn' entry)

theorem setLog (s : WalDirectory) (log : LogMemory) : Confined id s (s.setLog id log) :=
  ⟨rfl, fun h => h, fun _ _ => rfl, fun _ hOther => Function.update_of_ne hOther _ _, [],
    by simp [WalDirectory.setLog], by simp⟩

theorem record (s : WalDirectory) {access : FileAccess} {generation : Nat}
    (hOwn : access.name = id.fileName generation) : Confined id s (s.record id access) :=
  ⟨rfl, fun h => h, fun _ _ => rfl, fun _ _ => rfl, [(id, access)], rfl, by simp [hOwn]⟩

theorem parseFile (s : WalDirectory) (answers : DiskAnswers) (hOwn : file.2 = id.fileName file.1) :
    Confined id s (s.parseFile id answers file).1 := by
  have hOpened : Confined id s (s.record id (.read file.2)) := record s hOwn
  rw [WalDirectory.parseFile]
  split <;> exact hOpened

theorem parseFiles (answers : DiskAnswers) (hOwn : ∀ file ∈ files, file.2 = id.fileName file.1) :
    Confined id s (parseFiles id answers files s).1 := by
  induction files generalizing s with
  | nil => exact refl id s
  | cons file rest ih =>
      have hFile := parseFile s answers (hOwn file List.mem_cons_self)
      have hOwnRest : ∀ file ∈ rest, file.2 = id.fileName file.1 :=
        fun file hMem => hOwn file (List.mem_cons_of_mem _ hMem)
      rw [WalDirectory.parseFiles]
      generalize s.parseFile id answers file = result at hFile ⊢
      obtain ⟨t, _ | events⟩ := result
      · exact hFile
      · have hRest := hFile.trans (ih (s := t) hOwnRest)
        dsimp only
        generalize WalDirectory.parseFiles id answers rest t = result at hRest ⊢
        obtain ⟨u, _ | parsed⟩ := result <;> exact hRest

theorem readSince (answers : DiskAnswers) (fromLsn maxEvents : Nat)
    (hOwn : ∀ file ∈ id.listGenerationFiles answers.readdir, file.2 = id.fileName file.1) :
    Confined id s (s.readSince id answers fromLsn maxEvents).1 := by
  have hFiles := parseFiles (s := s) answers hOwn
  rw [WalDirectory.readSince]
  split_ifs
  · exact refl id s
  · generalize WalDirectory.parseFiles id answers _ s = result at hFiles ⊢
    obtain ⟨t, _ | parsed⟩ := result <;> exact hFiles

theorem scan (answers : DiskAnswers)
    (hOwn : ∀ file ∈ id.listGenerationFiles answers.readdir, file.2 = id.fileName file.1) :
    Confined id s (s.scan id answers).1 := by
  have hFiles := parseFiles (s := s) answers hOwn
  rw [WalDirectory.scan]
  generalize WalDirectory.parseFiles id answers _ s = result at hFiles ⊢
  obtain ⟨t, _ | parsed⟩ := result <;> exact hFiles

theorem insert (s : WalDirectory) (id : RevokerId) (generation : Nat) (content : Bytes) :
    Confined id s { s with files := s.files.insert (id.fileName generation) content } :=
  ⟨rfl, fun h => regular_insert h (Or.inl ⟨id, generation, rfl⟩) content,
    fun _ hName => AList.lookup_insert_ne (hName generation), fun _ _ => rfl, [], by simp, by simp⟩

theorem erase (s : WalDirectory) (id : RevokerId) (generation : Nat) :
    Confined id s { s with files := s.files.erase (id.fileName generation) } :=
  ⟨rfl, fun h => regular_erase h _, fun _ hName => AList.lookup_erase_ne (hName generation), fun _ _ => rfl, [],
    by simp, by simp⟩

theorem appendLine (s : WalDirectory) (id : RevokerId) (answers : DiskAnswers) (line : Line) :
    Confined id s (s.appendLine id answers line).1 := by
  have hOpened : Confined id s (s.record id (.append (id.fileName (s.logs id).generation))) := record s rfl
  rw [WalDirectory.appendLine]
  split_ifs
  · exact refl id s
  · dsimp only
    split
    · exact hOpened
    · exact hOpened.trans (insert _ id (s.logs id).generation _)

theorem appendEntry (s : WalDirectory) (id : RevokerId) (answers : DiskAnswers) (item : JsString) :
    Confined id s (s.appendEntry id answers item).1 := by
  have hAppended : Confined id s ((s.takeLsn id).appendLine id answers (.entry (s.logs id).nextLsn item)).1 :=
    (setLog s _).trans (appendLine _ id answers _)
  rw [WalDirectory.appendEntry]
  generalize (s.takeLsn id).appendLine id answers _ = result at hAppended ⊢
  obtain ⟨t, _ | _⟩ := result <;> exact hAppended

theorem appendRotate (s : WalDirectory) (id : RevokerId) (answers : DiskAnswers) (generation : Nat) :
    Confined id s (s.appendRotate id answers generation).1 := by
  have hAppended : Confined id s
      ((s.takeLsn id).appendLine id answers (.rotate (s.logs id).nextLsn generation)).1 :=
    (setLog s _).trans (appendLine _ id answers _)
  rw [WalDirectory.appendRotate]
  generalize (s.takeLsn id).appendLine id answers _ = result at hAppended ⊢
  obtain ⟨t, _ | _⟩ := result
  · exact hAppended
  · exact hAppended.trans (setLog t _)

theorem unlink (s : WalDirectory) (fileMaxLsn : Nat) (hOwn : file.2 = id.fileName file.1) :
    Confined id s (s.unlink id file.2 fileMaxLsn) := by
  rw [WalDirectory.unlink, hOwn]
  exact (setLog s _).trans (erase _ id file.1)

theorem truncateFiles (answers : DiskAnswers) (keepFromGeneration lsnFloor : Nat)
    (hOwn : ∀ file ∈ files, file.2 = id.fileName file.1) :
    Confined id s (truncateFiles id answers keepFromGeneration lsnFloor files s).1 := by
  induction files generalizing s with
  | nil => exact refl id s
  | cons file rest ih =>
      have hOwnFile := hOwn file List.mem_cons_self
      have hRest : ∀ t, Confined id t
          (WalDirectory.truncateFiles id answers keepFromGeneration lsnFloor rest t).1 :=
        fun t => ih (s := t) fun file hMem => hOwn file (List.mem_cons_of_mem _ hMem)
      have hFile := parseFile s answers hOwnFile
      rw [WalDirectory.truncateFiles]
      generalize s.parseFile id answers file = result at hFile ⊢
      by_cases hKeep : keepFromGeneration ≤ file.1
      · rw [if_pos hKeep]
        exact hRest s
      rw [if_neg hKeep]
      obtain ⟨t, _ | events⟩ := result
      · exact hFile
      have hCalled : Confined id s (t.record id (.unlink file.2)) := hFile.trans (record t hOwnFile)
      dsimp only
      split_ifs
      · exact hFile.trans (hRest t)
      · exact hCalled.trans (hRest _)
      · have hUnlinked := hCalled.trans (unlink (t.record id (.unlink file.2)) (maxLsn events) hOwnFile)
        have hDeleted := hUnlinked.trans (hRest _)
        generalize WalDirectory.truncateFiles id answers keepFromGeneration lsnFloor rest _ = result
          at hDeleted ⊢
        obtain ⟨u, _ | deleted⟩ := result <;> exact hDeleted

/-- Every call of a log stays with the files of the log. -/
theorem perform (hOwn : ∀ file ∈ id.listGenerationFiles answers.readdir, file.2 = id.fileName file.1)
    (operation : Operation) : Confined id s (s.perform id answers operation) := by
  cases operation with
  | construct => exact setLog s _
  | init nextLsn generation deletedMaxLsn => exact setLog s _
  | appendEntry item => exact appendEntry s id answers item
  | appendTombstone lsn item => exact appendLine s id answers _
  | appendRotate generation => exact appendRotate s id answers generation
  | readSince fromLsn maxEvents => exact readSince answers fromLsn maxEvents hOwn
  | scan => exact scan answers hOwn
  | truncateOldGenerations keepFromGeneration lsnFloor =>
      show Confined id s (s.truncateOldGenerations id answers keepFromGeneration lsnFloor).1
      rw [truncateOldGenerations]
      split_ifs
      · exact refl id s
      · exact truncateFiles answers keepFromGeneration lsnFloor hOwn

end Confined

/-- The directory as the first coordinator finds it. -/
def start (dir : String) (files : AList fun _ : JsString => Bytes) : WalDirectory :=
  { dir := dir, files := files }

/-- A log lists its own files alone. -/
theorem Regular.listing_own (hRegular : s.Regular) (hLists : s.Lists answers) :
    ∀ file ∈ id.listGenerationFiles answers.readdir, file.2 = id.fileName file.1 := by
  rintro ⟨generation, name⟩ hMem
  cases hReaddir : answers.readdir with
  | none =>
      rw [hReaddir] at hMem
      cases hMem
  | some names =>
      rw [hReaddir, RevokerId.listGenerationFiles_some] at hMem
      have hNames := hRegular.mono fun name hName => (hLists names hReaddir).mem_iff.mp hName
      exact (hNames.mem_listing.mp hMem).2

theorem Step.confined (hRegular : s.Regular) (h : Step s (.call id answers operation) t) : Confined id s t := by
  cases h with
  | call _ _ hLists => exact Confined.perform (hRegular.listing_own hLists) operation

theorem Regular.step {action : Action} (hRegular : s.Regular) (hStep : Step s action t) : t.Regular := by
  cases hStep with
  | call id operation hLists =>
      exact (Confined.perform (hRegular.listing_own hLists) operation).regular hRegular
  | write content hForeign => exact regular_insert hRegular (Or.inr hForeign) content
  | remove hForeign => exact regular_erase hRegular _

/-- Every file was accessed by its own log. -/
structure Tidy (s : WalDirectory) : Prop where
  regular : s.Regular
  own : ∀ entry ∈ s.accesses, ∃ generation, entry.2.name = entry.1.fileName generation

theorem Tidy.step {action : Action} (h : s.Tidy) (hStep : Step s action t) : t.Tidy := by
  refine ⟨h.regular.step hStep, fun entry hEntry => ?_⟩
  cases hStep with
  | call id operation hLists =>
      obtain ⟨new, hNew, hOwn⟩ := (Confined.perform (h.regular.listing_own hLists) operation).accesses
      rw [hNew] at hEntry
      rcases List.mem_append.mp hEntry with hOld | hEntry
      · exact h.own entry hOld
      · rw [(hOwn entry hEntry).1]
        exact (hOwn entry hEntry).2
  | write content hForeign => exact h.own entry hEntry
  | remove hForeign => exact h.own entry hEntry

theorem tidy_run {dir : String} {files : AList fun _ : JsString => Bytes} {actions : List Action}
    (hFiles : RevokerId.naming.Regular files.keys) (run : Run Step (start dir files) actions s) : s.Tidy :=
  run.invariant (fun _ _ _ h hStep => h.step hStep) ⟨hFiles, by simp [start]⟩

/-- What keeps the logs of one directory apart. -/
structure Separate (s : WalDirectory) : Prop where
  /-- In whatever order the directory is read, a log lists exactly its own files. -/
  listing : ∀ (id : RevokerId) (names : List JsString), names.Perm s.files.keys → ∀ generation name,
    (generation, name) ∈ id.listGenerationFiles (some names) ↔ name ∈ s.files ∧ name = id.fileName generation
  /-- By ascending generation, so each once. -/
  ascending : ∀ (id : RevokerId) (names : List JsString), names.Perm s.files.keys →
    (id.listGenerationFiles (some names)).Pairwise fun a b => a.1 < b.1
  /-- Every file that was read, appended to or unlinked was of the log that did so. -/
  accesses : ∀ id access, (id, access) ∈ s.accesses →
    (∃ generation, access.name = id.fileName generation) ∧
      ∀ (other : RevokerId) generation, access.name = other.fileName generation → other = id
  /-- No call changes a file of another log. -/
  frame : ∀ id answers operation t, Step s (.call id answers operation) t → ∀ other : RevokerId, other ≠ id →
    ∀ generation, t.files.lookup (other.fileName generation) = s.files.lookup (other.fileName generation)

theorem Tidy.separate (h : s.Tidy) : s.Separate where
  listing id names hNames generation name := by
    rw [RevokerId.listGenerationFiles_some]
    have hRegular := h.regular.mono fun name hName => hNames.mem_iff.mp hName
    rw [hRegular.mem_listing, hNames.mem_iff, ← AList.mem_keys]
    rfl
  ascending id names hNames := by
    have hRegular := h.regular.mono fun name hName => hNames.mem_iff.mp hName
    exact hRegular.ascending_listing (hNames.nodup_iff.mpr s.files.keys_nodup) id
  accesses id access hAccess := by
    obtain ⟨generation, hName⟩ := h.own _ hAccess
    refine ⟨⟨generation, hName⟩, fun other generation' hOther => ?_⟩
    rw [hName] at hOther
    exact (RevokerId.fileName_inj hOther).1.symm
  frame id answers operation t hStep other hOther generation :=
    (hStep.confined h.regular).frame _ fun _ hName => hOther (RevokerId.fileName_inj hName).1

/-- The logs of any ids in one directory stay apart, in any order of their calls. There is one
log for each id: of two objects with the same id, which would share their files, nothing is
said. -/
theorem separate_run (dir : String) {files : AList fun _ : JsString => Bytes} {actions : List Action}
    (hFiles : RevokerId.naming.Regular files.keys) (run : Run Step (start dir files) actions s) :
    (∀ (id other : RevokerId) (generation generation' : Nat),
      id.fileName generation = other.fileName generation' → id = other ∧ generation = generation') ∧
      s.Separate :=
  ⟨fun _ _ _ _ => RevokerId.fileName_inj, (tidy_run hFiles run).separate⟩

/-- The log of `r` scans a directory in which `r-1` has a file of its second generation. -/
theorem separate_run_scan :
    ((start "canonical" (AList.singleton (RevokerId.fileName ⟨[0x72, 0x2D, 0x31], by decide⟩ 2) [])).perform
      ⟨[0x72], by decide⟩ { readdir := some [RevokerId.fileName ⟨[0x72, 0x2D, 0x31], by decide⟩ 2] }
      .scan).Separate := by
  refine (separate_run "canonical" ?_ (Run.single (Step.call _ .scan ?_))).2
  · intro name hName
    rw [AList.keys_singleton, List.mem_singleton] at hName
    exact Or.inl ⟨_, 2, hName⟩
  · intro names hNames
    obtain rfl := Option.some.inj hNames
    rw [start, AList.keys_singleton]

/-- `canonical-r-1-2.wal` is no file of `r`. -/
example : RevokerId.listGenerationFiles ⟨[0x72], by decide⟩
    (some [RevokerId.fileName ⟨[0x72], by decide⟩ 10, RevokerId.fileName ⟨[0x72, 0x2D, 0x31], by decide⟩ 2,
      RevokerId.fileName ⟨[0x72], by decide⟩ 9]) =
    [(9, RevokerId.fileName ⟨[0x72], by decide⟩ 9), (10, RevokerId.fileName ⟨[0x72], by decide⟩ 10)] := by
  decide

end WalDirectory

end TokenRevoker
