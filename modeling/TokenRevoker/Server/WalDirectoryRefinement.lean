import TokenRevoker.Server.WalSeparation

/-! A log in a shared directory is a log with a directory of its own: every call has the
effect and the result that it has on the files of its log alone. -/
namespace TokenRevoker

open Text Transition SharedStore

theorem asciiText_append (a b : JsString) : asciiText (a ++ b) = asciiText a ++ asciiText b := by
  simp [asciiText, String.ofList_append]

/-- A number is printed with the digits that stand in the file name. -/
theorem asciiText_decimal (n : Nat) : asciiText (decimal n) = toString n := by
  have hDigits : (Nat.toDigits 10 n).map (fun c => Char.ofNat (UInt16.ofNat c.toNat).toNat) =
      Nat.toDigits 10 n := by
    refine (List.map_congr_left fun c hc => ?_).trans (List.map_id _)
    rw [(toNat_of_isDigit (Nat.isDigit_of_mem_toDigits (by decide) (by decide) hc)).1, Char.ofNat_toNat, id]
  rw [asciiText, decimal, List.map_map, Nat.toString_eq_repr, Nat.repr_eq_ofList_toDigits]
  exact congrArg String.ofList hDigits

section AppendFile

variable {generation : Nat} {files : List (Nat × Bytes)}

theorem ascending_appendFile (h : Ascending files) (generation : Nat) (bytes : Bytes) :
    Ascending (appendFile generation bytes files) := by
  induction files with
  | nil => exact List.pairwise_singleton _ _
  | cons file rest ih =>
      obtain ⟨hFirst, hRest⟩ := List.pairwise_cons.mp h
      rw [appendFile]
      split_ifs with hSame hLess
      · rw [hSame] at hFirst
        exact List.pairwise_cons.mpr ⟨hFirst, hRest⟩
      · refine List.pairwise_cons.mpr ⟨fun other hOther => ?_, h⟩
        rcases List.mem_cons.mp hOther with rfl | hOther
        · exact hLess
        · exact Nat.lt_trans hLess (hFirst other hOther)
      · refine List.pairwise_cons.mpr ⟨fun other hOther => ?_, ih hRest⟩
        rcases mem_of_mem_appendFile hOther with hEq | hOther
        · rw [hEq]
          exact Nat.lt_of_le_of_ne (Nat.le_of_not_lt hLess) hSame
        · exact hFirst other hOther

/-- The file of the generation gets the bytes, and the others stay. -/
theorem mem_appendFile_iff (h : Ascending files) {old : Option Bytes}
    (hOld : ∀ content, (generation, content) ∈ files ↔ old = some content) (bytes : Bytes) (n : Nat)
    (content : Bytes) : (n, content) ∈ appendFile generation bytes files ↔
      n ≠ generation ∧ (n, content) ∈ files ∨ n = generation ∧ content = old.getD [] ++ bytes := by
  induction files with
  | nil =>
      have hNone : old = none := Option.eq_none_iff_forall_ne_some.mpr fun content hSome =>
        List.not_mem_nil ((hOld content).mpr hSome)
      simp [appendFile, hNone]
  | cons file rest ih =>
      obtain ⟨hFirst, hRest⟩ := List.pairwise_cons.mp h
      rw [appendFile]
      split_ifs with hSame hLess
      · have hSome : old = some file.2 := (hOld file.2).mp (by simp [← hSame])
        have hOthers : (n, content) ∈ rest → n ≠ generation := fun hMem =>
          hSame ▸ (Nat.ne_of_lt (hFirst _ hMem)).symm
        have hHead : (n, content) = file → n = generation := fun hEq => by rw [← hSame, ← hEq]
        rw [List.mem_cons, List.mem_cons, Prod.mk.injEq, hSome, Option.getD_some, or_comm]
        refine or_congr ⟨fun hMem => ⟨hOthers hMem, Or.inr hMem⟩, ?_⟩ Iff.rfl
        rintro ⟨hne, hEq | hMem⟩
        · exact absurd (hHead hEq) hne
        · exact hMem
      · have hOthers : (n, content) ∈ file :: rest → n ≠ generation := by
          intro hMem
          rcases List.mem_cons.mp hMem with hEq | hMem
          · rw [← hEq] at hLess
            exact (Nat.ne_of_lt hLess).symm
          · exact (Nat.ne_of_lt (Nat.lt_trans hLess (hFirst _ hMem))).symm
        have hNone : old = none := Option.eq_none_iff_forall_ne_some.mpr fun content hSome => by
          rcases List.mem_cons.mp ((hOld content).mpr hSome) with hEq | hMem
          · exact hSame (congrArg Prod.fst hEq).symm
          · exact Nat.lt_asymm hLess (hFirst _ hMem)
        rw [List.mem_cons, hNone, Option.getD_none, List.nil_append, Prod.mk.injEq,
          and_iff_right_of_imp hOthers, or_comm]
      · have hOldRest : ∀ content, (generation, content) ∈ rest ↔ old = some content := by
          intro content
          rw [← hOld content, List.mem_cons]
          exact (or_iff_right fun hEq => hSame (congrArg Prod.fst hEq).symm).symm
        have hHead : (n, content) = file → n ≠ generation := fun hEq => by
          rw [← hEq] at hSame
          exact hSame
        rw [List.mem_cons, ih hRest hOldRest, List.mem_cons, and_or_left, or_assoc,
          and_iff_right_of_imp hHead]

end AppendFile

namespace WalDirectory

open RevokerId

variable {id other : RevokerId} {answers : DiskAnswers} {s t : WalDirectory} {operation : Operation}
  {file : Nat × JsString} {content : Bytes}

/-- The log of an id, with its files alone. What it holds depends on no file of another name. -/
def log (s : WalDirectory) (id : RevokerId) : CanonicalWal where
  dir := s.dir
  revokerId := asciiText id.text
  files := contents naming id s.files
  nextLsn := (s.logs id).nextLsn
  generation := (s.logs id).generation
  deletedMaxLsn := (s.logs id).deletedMaxLsn
  initialized := (s.logs id).initialized

/-- The file system lists the names, and no read throws. Appends and unlinks may still throw. -/
structure DiskClear (answers : DiskAnswers) : Prop where
  readdir : answers.readdir.isSome = true
  read : ∀ name, answers.readFault name = none

/-- The call can list and read the files of its log. -/
structure Readable (s : WalDirectory) (answers : DiskAnswers) : Prop extends DiskClear answers where
  lists : s.Lists answers

theorem fileName_log (s : WalDirectory) (id : RevokerId) (generation : Nat) :
    (s.log id).fileName generation = asciiText (id.fileName generation) := by
  rw [RevokerId.fileName, filePrefix, asciiText_append, asciiText_append, asciiText_append, asciiText_append,
    asciiText_decimal, CanonicalWal.fileName]
  rfl

/-- Another log is not affected by a call. -/
theorem Confined.log (h : Confined id s t) (hRegular : s.Regular) (hOther : other ≠ id) :
    t.log other = s.log other := by
  have hFiles : contents naming other t.files = contents naming other s.files :=
    contents_congr hRegular (h.regular hRegular) fun generation =>
      h.frame _ fun _ hName => hOther (fileName_inj hName).1
  rw [WalDirectory.log, hFiles, h.dir, h.logs other hOther]
  rfl

/-- Nor by files that belong to no log. -/
theorem log_of_foreign (hRegular : s.Regular) {files : AList fun _ : JsString => Bytes}
    (hFiles : naming.Regular files.keys)
    (hSame : ∀ (id : RevokerId) generation, files.lookup (id.fileName generation) =
      s.files.lookup (id.fileName generation)) (id : RevokerId) :
    WalDirectory.log { s with files := files } id = s.log id := by
  have hContents : contents naming id files = contents naming id s.files :=
    contents_congr hRegular hFiles fun generation => hSame id generation
  rw [WalDirectory.log, hContents]
  rfl

/-- The listing names the files of the log. -/
theorem Regular.listing_log (hRegular : s.Regular) (h : s.Readable answers) (id : RevokerId) :
    id.listGenerationFiles answers.readdir =
      (s.log id).files.map fun file => (file.1, id.fileName file.1) := by
  obtain ⟨names, hNames⟩ := Option.isSome_iff_exists.mp h.readdir
  have hPerm := h.lists names hNames
  have hListed : naming.Regular names := hRegular.mono fun name hName => hPerm.mem_iff.mp hName
  rw [hNames, listGenerationFiles_some,
    hListed.listing_perm (hPerm.nodup_iff.mpr s.files.keys_nodup) hPerm id]
  exact listing_eq hRegular id

theorem log_setLog (s : WalDirectory) (id : RevokerId) (memory : LogMemory) :
    (s.setLog id memory).log id =
      { s.log id with
        nextLsn := memory.nextLsn
        generation := memory.generation
        deletedMaxLsn := memory.deletedMaxLsn
        initialized := memory.initialized } := by
  simp [WalDirectory.log, setLog]

section Append

/-- An append to the file of a generation, as the log itself sees it. -/
theorem contents_append (hRegular : s.Regular) (id : RevokerId) (generation : Nat) (bytes : Bytes) :
    contents naming id (s.files.insert (id.fileName generation)
      ((s.files.lookup (id.fileName generation)).getD [] ++ bytes)) =
        appendFile generation bytes (contents naming id s.files) := by
  have hInserted := regular_insert hRegular (Or.inl ⟨id, generation, rfl⟩)
    ((s.files.lookup (id.fileName generation)).getD [] ++ bytes)
  have hAscending := ascending_contents hRegular id
  refine (ascending_contents hInserted id).ext (ascending_appendFile hAscending generation bytes) ?_
  rintro ⟨n, content⟩
  rw [mem_contents hInserted, mem_appendFile_iff hAscending (fun content => mem_contents hRegular),
    mem_contents hRegular]
  by_cases hn : n = generation
  · subst hn
    rw [AList.lookup_insert]
    simp [eq_comm, naming]
  · have hName : naming.name id n ≠ naming.name id generation := fun hEq => hn (naming.name_inj hEq).2
    rw [AList.lookup_insert_ne hName]
    simp [hn]

theorem appendLine_log (hRegular : s.Regular) (id : RevokerId) (answers : DiskAnswers) (line : Line) :
    ((s.appendLine id answers line).1.log id, (s.appendLine id answers line).2) =
      (s.log id).appendLine answers.appendFault line := by
  unfold WalDirectory.appendLine CanonicalWal.appendLine
  by_cases hInitialized : (s.logs id).initialized = false
  · rw [if_pos hInitialized, if_pos (show (s.log id).initialized = false from hInitialized)]
  rw [if_neg hInitialized, if_neg (show ¬ (s.log id).initialized = false from hInitialized)]
  cases answers.appendFault with
  | some message =>
      have hPath : (s.log id).filePath (s.logs id).generation =
          s.filePath (id.fileName (s.logs id).generation) := by
        rw [CanonicalWal.filePath, fileName_log]
        rfl
      have hError : (s.log id).appendFailed message =
          s.appendFailed (id.fileName (s.logs id).generation) message := by
        rw [CanonicalWal.appendFailed, WalDirectory.appendFailed, ← hPath]
        rfl
      dsimp only
      rw [hError]
      rfl
  | none =>
      have hFiles := contents_append hRegular id (s.logs id).generation (encodeUtf8 (line.text ++ [newline]))
      dsimp only [WalDirectory.log, WalDirectory.record]
      rw [hFiles]

theorem appendTaken_log (hRegular : s.Regular) (id : RevokerId) (answers : DiskAnswers) (line : Line) :
    (((s.takeLsn id).appendLine id answers line).1.log id, ((s.takeLsn id).appendLine id answers line).2) =
      CanonicalWal.appendLine { s.log id with nextLsn := (s.log id).nextLsn + 1 } answers.appendFault line := by
  have hTaken : (s.takeLsn id).Regular := hRegular
  rw [appendLine_log hTaken, takeLsn, log_setLog]
  rfl

theorem appendEntry_log (hRegular : s.Regular) (id : RevokerId) (answers : DiskAnswers) (item : JsString) :
    ((s.appendEntry id answers item).1.log id, (s.appendEntry id answers item).2) =
      (s.log id).appendEntry answers.appendFault item := by
  have hAppended := appendTaken_log hRegular id answers (.entry (s.logs id).nextLsn item)
  unfold WalDirectory.appendEntry CanonicalWal.appendEntry
  dsimp only
  rw [show (s.log id).nextLsn = (s.logs id).nextLsn from rfl] at hAppended ⊢
  rw [← hAppended]
  obtain ⟨t, _ | _⟩ := (s.takeLsn id).appendLine id answers (.entry (s.logs id).nextLsn item) <;> rfl

theorem appendRotate_log (hRegular : s.Regular) (id : RevokerId) (answers : DiskAnswers) (generation : Nat) :
    ((s.appendRotate id answers generation).1.log id, (s.appendRotate id answers generation).2) =
      (s.log id).appendRotate answers.appendFault generation := by
  have hAppended := appendTaken_log hRegular id answers (.rotate (s.logs id).nextLsn generation)
  unfold WalDirectory.appendRotate CanonicalWal.appendRotate
  dsimp only
  rw [show (s.log id).nextLsn = (s.logs id).nextLsn from rfl] at hAppended ⊢
  rw [← hAppended]
  obtain ⟨t, _ | _⟩ := (s.takeLsn id).appendLine id answers (.rotate (s.logs id).nextLsn generation)
  · rfl
  · dsimp only
    rw [log_setLog]
    rfl

end Append

section Reads

/-- Reading files opens them and changes nothing else. -/
theorem parseFile_eq (hLookup : s.files.lookup file.2 = some content)
    (hRead : answers.readFault file.2 = none) : s.parseFile id answers file =
      (s.record id (.read file.2), .ok (TokenRevoker.parseFile file.1 content)) := by
  simp [WalDirectory.parseFile, hLookup, hRead]

theorem parseFiles_log (hRead : ∀ name, answers.readFault name = none) (entries : List (Nat × Bytes))
    (hEntries : ∀ entry ∈ entries, s.files.lookup (id.fileName entry.1) = some entry.2) :
    ∃ t, parseFiles id answers (entries.map fun entry => (entry.1, id.fileName entry.1)) s =
        (t, .ok (entries.map fun entry => (entry.1, fileEvents entry))) ∧ t.log = s.log := by
  induction entries generalizing s with
  | nil => exact ⟨s, rfl, rfl⟩
  | cons entry rest ih =>
      have hFile := hEntries entry List.mem_cons_self
      obtain ⟨t, hParsed, hLog⟩ := ih (s := s.record id (.read (id.fileName entry.1)))
        fun other hOther => hEntries other (List.mem_cons_of_mem _ hOther)
      refine ⟨t, ?_, hLog⟩
      rw [List.map_cons, parseFiles, parseFile_eq hFile (hRead _)]
      dsimp only
      rw [hParsed]
      rfl

/-- The files that a call reads are those of the log. -/
theorem Regular.parseFiles_log (hRegular : s.Regular) (h : s.Readable answers) (id : RevokerId) :
    ∃ t, parseFiles id answers (id.listGenerationFiles answers.readdir) s =
        (t, .ok ((s.log id).files.map fun entry => (entry.1, fileEvents entry))) ∧ t.log = s.log := by
  rw [hRegular.listing_log h]
  exact WalDirectory.parseFiles_log h.read _ fun entry hEntry => (mem_contents hRegular).mp hEntry

theorem flatMap_events (s : WalDirectory) (id : RevokerId) :
    ((s.log id).files.map fun entry => (entry.1, fileEvents entry)).flatMap Prod.snd = (s.log id).events := by
  rw [CanonicalWal.events, List.flatMap_map]

theorem readSince_log (hRegular : s.Regular) (h : s.Readable answers) (id : RevokerId)
    (fromLsn maxEvents : Nat) :
    (s.readSince id answers fromLsn maxEvents).1.log = s.log ∧
      (s.readSince id answers fromLsn maxEvents).2 = (s.log id).readSince fromLsn maxEvents := by
  obtain ⟨t, hParsed, hLog⟩ := hRegular.parseFiles_log h id
  unfold WalDirectory.readSince CanonicalWal.readSince
  rw [show (s.log id).initialized = (s.logs id).initialized from rfl, hParsed]
  split_ifs
  · exact ⟨rfl, rfl⟩
  · dsimp only
    rw [flatMap_events]
    exact ⟨hLog, apply_ite Except.ok _ _ _⟩

theorem scan_log (hRegular : s.Regular) (h : s.Readable answers) (id : RevokerId) :
    (s.scan id answers).1.log = s.log ∧ (s.scan id answers).2 = .ok (s.log id).scan := by
  obtain ⟨t, hParsed, hLog⟩ := hRegular.parseFiles_log h id
  rw [WalDirectory.scan, hParsed]
  refine ⟨hLog, ?_⟩
  dsimp only
  rw [flatMap_events, List.foldl_map]
  rfl

end Reads

section Retention

/-- A successful `unlinkSync` of a file of the log. -/
theorem unlink_log (hRegular : s.Regular) (id : RevokerId) (entry : Nat × Bytes) :
    (s.unlink id (id.fileName entry.1) (maxLsn (fileEvents entry))).log id = (s.log id).unlink entry := by
  have hContents := contents_erase hRegular id entry.1
  dsimp only [WalDirectory.log, unlink, setLog, CanonicalWal.unlink]
  rw [Function.update_self]
  exact congrArg (fun files => CanonicalWal.mk s.dir (asciiText id.text) files (s.logs id).nextLsn
    (s.logs id).generation _ (s.logs id).initialized) hContents

/-- Two states of the directory that differ in the accesses alone. -/
def SameFiles (s t : WalDirectory) : Prop := t.dir = s.dir ∧ t.files = s.files ∧ t.logs = s.logs

theorem SameFiles.log (h : SameFiles s t) : t.log = s.log := by
  funext id
  rw [WalDirectory.log, h.1, h.2.1, h.2.2]
  rfl

theorem SameFiles.regular (h : SameFiles s t) (hRegular : s.Regular) : t.Regular := by
  rw [WalDirectory.Regular, h.2.1]
  exact hRegular

section Loop

variable {keepFromGeneration lsnFloor : Nat} {entry : Nat × Bytes} {rest : List (Nat × JsString)}

/-- The log itself would delete the file, and the file system lets it. -/
def deletes (id : RevokerId) (answers : DiskAnswers) (keepFromGeneration lsnFloor : Nat)
    (entry : Nat × Bytes) : Bool :=
  CanonicalWal.deletable keepFromGeneration lsnFloor entry && !answers.unlinkFails (id.fileName entry.1)

/-- A file that stays. -/
theorem truncateFiles_keep (hRead : ∀ name, answers.readFault name = none)
    (hLookup : s.files.lookup (id.fileName entry.1) = some entry.2)
    (hKeep : deletes id answers keepFromGeneration lsnFloor entry = false) :
    ∃ t, SameFiles s t ∧
      truncateFiles id answers keepFromGeneration lsnFloor ((entry.1, id.fileName entry.1) :: rest) s =
        truncateFiles id answers keepFromGeneration lsnFloor rest t := by
  rw [truncateFiles]
  by_cases hOld : keepFromGeneration ≤ entry.1
  · exact ⟨s, ⟨rfl, rfl, rfl⟩, if_pos hOld⟩
  rw [if_neg hOld, parseFile_eq hLookup (hRead _)]
  by_cases hAbove : lsnFloor < maxLsn (fileEvents entry)
  · exact ⟨s.record id (.read (id.fileName entry.1)), ⟨rfl, rfl, rfl⟩, if_pos hAbove⟩
  have hFails : answers.unlinkFails (id.fileName entry.1) = true := by
    have hDeletable : CanonicalWal.deletable keepFromGeneration lsnFloor entry = true := by
      simp only [CanonicalWal.deletable, Bool.and_eq_true, decide_eq_true_eq]
      omega
    simpa [deletes, hDeletable] using hKeep
  exact ⟨(s.record id (.read (id.fileName entry.1))).record id (.unlink (id.fileName entry.1)), ⟨rfl, rfl, rfl⟩,
    (if_neg hAbove).trans (if_pos hFails)⟩

/-- A file that goes. -/
theorem truncateFiles_delete (hRead : ∀ name, answers.readFault name = none)
    (hLookup : s.files.lookup (id.fileName entry.1) = some entry.2)
    (hDelete : deletes id answers keepFromGeneration lsnFloor entry = true) :
    ∃ t, SameFiles s t ∧ ∀ u deleted,
      truncateFiles id answers keepFromGeneration lsnFloor rest
          (t.unlink id (id.fileName entry.1) (maxLsn (fileEvents entry))) = (u, .ok deleted) →
        truncateFiles id answers keepFromGeneration lsnFloor ((entry.1, id.fileName entry.1) :: rest) s =
          (u, .ok (id.fileName entry.1 :: deleted)) := by
  simp only [deletes, CanonicalWal.deletable, Bool.and_eq_true, decide_eq_true_eq, Bool.not_eq_true'] at hDelete
  obtain ⟨⟨hOld, hBelow⟩, hUnlinked⟩ := hDelete
  refine ⟨(s.record id (.read (id.fileName entry.1))).record id (.unlink (id.fileName entry.1)),
    ⟨rfl, rfl, rfl⟩, fun u deleted hRest => ?_⟩
  rw [truncateFiles, if_neg (Nat.not_le_of_lt hOld), parseFile_eq hLookup (hRead _)]
  dsimp only
  rw [if_neg (show ¬ lsnFloor < maxLsn (TokenRevoker.parseFile entry.1 entry.2) from Nat.not_lt_of_le hBelow),
    if_neg (by rw [hUnlinked]; exact Bool.false_ne_true),
    show maxLsn (TokenRevoker.parseFile entry.1 entry.2) = maxLsn (fileEvents entry) from rfl, hRest]

end Loop

/-- The loop over files of the log deletes those that the log itself would delete. -/
theorem truncateFiles_log (hRegular : s.Regular) (id : RevokerId)
    (hRead : ∀ name, answers.readFault name = none) (keepFromGeneration lsnFloor : Nat)
    {entries : List (Nat × Bytes)} (hAscending : Ascending entries)
    (hEntries : ∀ entry ∈ entries, s.files.lookup (id.fileName entry.1) = some entry.2) :
    ∃ t, truncateFiles id answers keepFromGeneration lsnFloor
          (entries.map fun entry => (entry.1, id.fileName entry.1)) s =
        (t, .ok ((entries.filter (deletes id answers keepFromGeneration lsnFloor)).map
          fun entry => id.fileName entry.1)) ∧
      t.log id = (entries.filter (deletes id answers keepFromGeneration lsnFloor)).foldl
        CanonicalWal.unlink (s.log id) := by
  induction entries generalizing s with
  | nil => exact ⟨s, rfl, rfl⟩
  | cons entry rest ih =>
      obtain ⟨hFirst, hAscendingRest⟩ := List.pairwise_cons.mp hAscending
      have hFile := hEntries entry List.mem_cons_self
      have hRest : ∀ other ∈ rest, s.files.lookup (id.fileName other.1) = some other.2 :=
        fun other hOther => hEntries other (List.mem_cons_of_mem _ hOther)
      rw [List.map_cons, List.filter_cons]
      cases hDeletes : deletes id answers keepFromGeneration lsnFloor entry with
      | false =>
          obtain ⟨called, hSame, hLoop⟩ := truncateFiles_keep hRead hFile hDeletes
          obtain ⟨t, hTail, hLog⟩ := ih (hSame.regular hRegular) hAscendingRest fun other hOther => by
            rw [hSame.2.1, hRest other hOther]
          rw [hSame.log] at hLog
          exact ⟨t, (hLoop.trans hTail), hLog⟩
      | true =>
          -- the files that the loop has still to read are there yet
          obtain ⟨called, hSame, hLoop⟩ := truncateFiles_delete hRead hFile hDeletes
          have hCalled := hSame.regular hRegular
          have hUnlinked := unlink_log hCalled id entry
          have hFiles : ∀ other ∈ rest,
              (called.unlink id (id.fileName entry.1) (maxLsn (fileEvents entry))).files.lookup
                (id.fileName other.1) = some other.2 := by
            intro other hOther
            have hName : id.fileName other.1 ≠ id.fileName entry.1 := fun hName =>
              Nat.ne_of_gt (hFirst other hOther) (fileName_inj hName).2
            rw [unlink, AList.lookup_erase_ne hName, hSame.2.1, hRest other hOther]
          obtain ⟨t, hTail, hLog⟩ := ih
            (s := called.unlink id (id.fileName entry.1) (maxLsn (fileEvents entry)))
            (regular_erase hCalled _) hAscendingRest hFiles
          rw [hUnlinked, hSame.log] at hLog
          exact ⟨t, hLoop t _ hTail, hLog⟩

theorem truncateOldGenerations_log (hRegular : s.Regular) (h : s.Readable answers) (id : RevokerId)
    (keepFromGeneration lsnFloor : Nat) :
    ((s.truncateOldGenerations id answers keepFromGeneration lsnFloor).1.log id,
        (s.truncateOldGenerations id answers keepFromGeneration lsnFloor).2.map (List.map asciiText)) =
      (s.log id).truncateOldGenerations keepFromGeneration lsnFloor
        fun generation => answers.unlinkFails (id.fileName generation) := by
  obtain ⟨t, hLoop, hLog⟩ := truncateFiles_log hRegular id h.read keepFromGeneration lsnFloor
    (ascending_contents hRegular id) fun entry hEntry => (mem_contents hRegular).mp hEntry
  rw [WalDirectory.truncateOldGenerations, CanonicalWal.truncateOldGenerations, hRegular.listing_log h]
  by_cases hInitialized : (s.logs id).initialized = false
  · rw [if_pos hInitialized, if_pos (show (s.log id).initialized = false from hInitialized)]
    rfl
  rw [if_neg hInitialized, if_neg (show ¬ (s.log id).initialized = false from hInitialized)]
  have hNames : ∀ entries : List (Nat × Bytes), (entries.map fun entry => id.fileName entry.1).map asciiText =
      entries.map fun entry => (s.log id).fileName entry.1 := by
    intro entries
    rw [List.map_map]
    exact List.map_congr_left fun entry _ => (fileName_log s id entry.1).symm
  have hLoopLog : truncateFiles id answers keepFromGeneration lsnFloor
      ((s.log id).files.map fun file => (file.1, id.fileName file.1)) s = _ := hLoop
  rw [hLoopLog]
  dsimp only [Except.map]
  rw [hLog, hNames]
  rfl

end Retention

section Runs

/-- The same call on a log that has its directory for itself. -/
def alone (id : RevokerId) (answers : DiskAnswers) (wal : CanonicalWal) : Operation → CanonicalWal
  | .construct => { dir := wal.dir, revokerId := wal.revokerId, files := wal.files }
  | .init nextLsn generation deletedMaxLsn => wal.init nextLsn generation deletedMaxLsn
  | .appendEntry item => (wal.appendEntry answers.appendFault item).1
  | .appendTombstone lsn item => (wal.appendTombstone answers.appendFault lsn item).1
  | .appendRotate generation => (wal.appendRotate answers.appendFault generation).1
  | .readSince _ _ | .scan => wal
  | .truncateOldGenerations keepFromGeneration lsnFloor =>
    (wal.truncateOldGenerations keepFromGeneration lsnFloor
      fun generation => answers.unlinkFails (id.fileName generation)).1

theorem perform_log (hRegular : s.Regular) (h : s.Readable answers) (id : RevokerId) (operation : Operation) :
    (s.perform id answers operation).log id = alone id answers (s.log id) operation := by
  cases operation with
  | construct | init nextLsn generation deletedMaxLsn => exact log_setLog s id _
  | appendEntry item => exact congrArg Prod.fst (appendEntry_log hRegular id answers item)
  | appendTombstone lsn item =>
      exact congrArg Prod.fst (appendLine_log hRegular id answers (.tombstone lsn item))
  | appendRotate generation => exact congrArg Prod.fst (appendRotate_log hRegular id answers generation)
  | readSince fromLsn maxEvents => exact congrFun (readSince_log hRegular h id fromLsn maxEvents).1 id
  | scan => exact congrFun (scan_log hRegular h id).1 id
  | truncateOldGenerations keepFromGeneration lsnFloor =>
      exact congrArg Prod.fst (truncateOldGenerations_log hRegular h id keepFromGeneration lsnFloor)

/-- What a step is to the log of an id: its own calls, and nothing else. -/
def aloneStep (id : RevokerId) (wal : CanonicalWal) : Action → CanonicalWal
  | .call caller answers operation => if caller = id then alone id answers wal operation else wal
  | .write _ _ | .remove _ => wal

theorem log_step {action : Action} (hRegular : s.Regular) (hStep : Step s action t)
    (hClear : ∀ answers operation, action = .call id answers operation → DiskClear answers) :
    t.log id = aloneStep id (s.log id) action := by
  cases hStep with
  | @call caller answers operation hLists =>
      by_cases hCaller : caller = id
      · subst hCaller
        rw [aloneStep, if_pos rfl]
        exact perform_log hRegular ⟨hClear answers operation rfl, hLists⟩ caller operation
      · rw [aloneStep, if_neg hCaller]
        exact (Confined.perform (hRegular.listing_own hLists) operation).log hRegular (Ne.symm hCaller)
  | write content hForeign =>
      exact log_of_foreign hRegular (regular_insert hRegular (Or.inr hForeign) content)
        (fun id generation => AList.lookup_insert_ne (hForeign.ne_name id generation)) id
  | remove hForeign =>
      exact log_of_foreign hRegular (regular_erase hRegular _)
        (fun id generation => AList.lookup_erase_ne (hForeign.ne_name id generation)) id

/-- In a shared directory, each log is what its own calls make of it. -/
theorem log_run (hRegular : s.Regular) {actions : List Action} (run : Run Step s actions t) (id : RevokerId)
    (hClear : ∀ answers operation, Action.call id answers operation ∈ actions → DiskClear answers) :
    t.log id = actions.foldl (aloneStep id) (s.log id) := by
  induction run with
  | nil => rfl
  | @snoc middle t actions action prior last ih =>
      have hMiddle : middle.Regular := prior.invariant (fun _ _ _ h hStep => h.step hStep) hRegular
      rw [List.foldl_append, List.foldl_cons, List.foldl_nil,
        ← ih fun answers operation hMem => hClear answers operation (List.mem_append_left _ hMem)]
      refine log_step hMiddle last fun answers operation hAction => hClear answers operation ?_
      rw [hAction]
      exact List.mem_append_right _ List.mem_cons_self

theorem lists_keys (s : WalDirectory) : s.Lists { readdir := some s.files.keys } := by
  intro names hNames
  rw [Option.some.inj hNames]

/-- A log cannot tell whether it shares its directory: whatever the other logs did there, and
other programs under other names, it stands as its own calls have left it, and every append,
read, scan and retention is answered as in a directory of its own. Its own calls have to be
able to list the directory and to read what they list; how they fail otherwise is in the model
of the directory, but a log with a directory of its own has no such faults to compare with. -/
theorem answers_alone (hRegular : s.Regular) {actions : List Action} (run : Run Step s actions t)
    (id : RevokerId)
    (hClear : ∀ answers operation, Action.call id answers operation ∈ actions → DiskClear answers) :
    ∃ wal, wal = actions.foldl (aloneStep id) (s.log id) ∧ t.log id = wal ∧
      (∀ answers item, (t.appendEntry id answers item).2 = (wal.appendEntry answers.appendFault item).2) ∧
      (∀ answers lsn item, (t.appendTombstone id answers lsn item).2 =
        (wal.appendTombstone answers.appendFault lsn item).2) ∧
      (∀ answers generation,
        (t.appendRotate id answers generation).2 = (wal.appendRotate answers.appendFault generation).2) ∧
      ∀ answers, t.Readable answers →
        (∀ fromLsn maxEvents, (t.readSince id answers fromLsn maxEvents).2 = wal.readSince fromLsn maxEvents) ∧
        (t.scan id answers).2 = .ok wal.scan ∧
        ∀ keepFromGeneration lsnFloor,
          (t.truncateOldGenerations id answers keepFromGeneration lsnFloor).2.map (List.map asciiText) =
            (wal.truncateOldGenerations keepFromGeneration lsnFloor
              fun generation => answers.unlinkFails (id.fileName generation)).2 := by
  have hLast : t.Regular := run.invariant (fun _ _ _ h hStep => h.step hStep) hRegular
  refine ⟨_, rfl, log_run hRegular run id hClear, ?_⟩
  rw [← log_run hRegular run id hClear]
  refine ⟨fun answers item => ?_, fun answers lsn item => ?_, fun answers generation => ?_,
    fun answers hReadable => ⟨?_, ?_, ?_⟩⟩
  · exact congrArg Prod.snd (appendEntry_log hLast id answers item)
  · exact congrArg Prod.snd (appendLine_log hLast id answers (.tombstone lsn item))
  · exact congrArg Prod.snd (appendRotate_log hLast id answers generation)
  · exact fun fromLsn maxEvents => (readSince_log hLast hReadable id fromLsn maxEvents).2
  · exact (scan_log hLast hReadable id).2
  · exact fun keepFromGeneration lsnFloor =>
      congrArg Prod.snd (truncateOldGenerations_log hLast hReadable id keepFromGeneration lsnFloor)

/-- `r` appends after `r-1` has done so. -/
theorem answers_alone_interleaved :
    ∃ t actions, Run Step (start "canonical" ∅) actions t ∧
      t.log ⟨[0x72], by decide⟩ = actions.foldl (aloneStep ⟨[0x72], by decide⟩)
        ((start "canonical" ∅).log ⟨[0x72], by decide⟩) := by
  have hOther := (Run.single (Step.call (s := start "canonical" ∅) ⟨[0x72, 0x2D, 0x31], by decide⟩ (.init 7 2 0)
    (lists_keys _))).snoc (Step.call ⟨[0x72, 0x2D, 0x31], by decide⟩ (.appendEntry [98]) (lists_keys _))
  have hOwn := (hOther.snoc (Step.call ⟨[0x72], by decide⟩ (.init 1 0 0) (lists_keys _))).snoc
    (Step.call ⟨[0x72], by decide⟩ (.appendEntry [97]) (lists_keys _))
  refine ⟨_, _, hOwn, ?_⟩
  have hAnswers := answers_alone (fun name h => (List.not_mem_nil h).elim) hOwn ⟨[0x72], by decide⟩
  obtain ⟨wal, rfl, hLog, -⟩ := hAnswers (by
    intro answers operation hMem
    simp only [List.cons_append, List.nil_append, List.mem_cons, List.not_mem_nil, or_false,
      Action.call.injEq] at hMem
    rcases hMem with ⟨-, rfl, -⟩ | ⟨-, rfl, -⟩ | ⟨-, rfl, -⟩ | ⟨-, rfl, -⟩ <;> exact ⟨rfl, fun _ => rfl⟩)
  exact hLog

end Runs

end WalDirectory

end TokenRevoker
