import HorrorScope.Base.Text
import HorrorScope.Base.While
import HorrorScope.Trs.RoundTrip
import Mathlib.Data.Finset.Dedup
import Mathlib.Data.List.AList

/-!
# The name of a new trace file

`src/acq/Trace.py:252–261`. `new` looks for a name that no regular file has before it opens a
file for writing: the given one, then the given one with a counter in front of its last four
characters. The files that were there stay as they are, so a trace set that was written stays
readable whatever sets are written after it.
-/

namespace HorrorScope.Trs

open HorrorScope.Base

/-- The regular files, each under its name. -/
abbrev Files := AList fun _ : List Char ↦ List UInt8

/-- `os.path.isfile(name)`. -/
def isfile (files : Files) (name : List Char) : Bool := (files.lookup name).isSome

/-- The two variables of the renaming loop. -/
structure Renaming where
  tempFileName : List Char
  fileCounter : Nat
  deriving DecidableEq, Repr

/-- `fileName[:-4] + ('(%d)' % fileCounter) + fileName[-4:]`. A name of fewer than four characters
is all suffix: both slices stop at its start. -/
def numbered (fileName : List Char) (fileCounter : Nat) : List Char :=
  fileName.take (fileName.length - 4) ++ ('(' :: decimal fileCounter ++ [')']) ++
    fileName.drop (fileName.length - 4)

/-- The body of the renaming loop, `Trace.py:256–257`. -/
def rename (fileName : List Char) (r : Renaming) : Renaming where
  tempFileName := numbered fileName r.fileCounter
  fileCounter := r.fileCounter + 1

/-- The renaming loop, `Trace.py:253–257`. -/
def freeName (fuel : Nat) (files : Files) (fileName : List Char) : Option (List Char) :=
  (whileLoop (fun r ↦ isfile files r.tempFileName) (rename fileName) fuel ⟨fileName, 1⟩).map
    Renaming.tempFileName

/-- `Trace.py:252–278`: the name, the files and the object after `new`. -/
def newFile (fuel : Nat) (files : Files) (self : TraceSet) (fileName : List Char)
    (titleSpace sampleCoding dataSpace numberOfSamples : Nat) (xscale yscale : UInt32) :
    Option (List Char × Files × TraceSet) := do
  let tempFileName ← freeName fuel files fileName
  -- `open(…, 'wb')` creates the file or empties the one that has the name
  let files := files.insert tempFileName []
  let self := self.new titleSpace sampleCoding dataSpace numberOfSamples xscale yscale
  return (tempFileName, files.insert tempFileName self.file, self)

/-! ### The names tried -/

/-- The name that is tested after `k` iterations. -/
def tried (fileName : List Char) : Nat → List Char
  | 0 => fileName
  | k + 1 => numbered fileName (k + 1)

private theorem iterate_rename (fileName : List Char) (k : Nat) :
    (rename fileName)^[k] ⟨fileName, 1⟩ = ⟨tried fileName k, k + 1⟩ := by
  induction k with
  | zero => rfl
  | succ k ih =>
    rw [Function.iterate_succ_apply', ih]
    rfl

private theorem length_numbered (fileName : List Char) (k : Nat) :
    (numbered fileName k).length = fileName.length + (decimal k).length + 2 := by
  simp only [numbered, List.length_append, List.length_take, List.length_drop, List.length_cons,
    List.length_nil]
  omega

private theorem numbered_injective (fileName : List Char) :
    Function.Injective (numbered fileName) := by
  intro m n h
  have hmiddle := List.append_cancel_left (List.append_cancel_right h)
  rw [List.cons_append, List.cons_append, List.cons.injEq] at hmiddle
  exact decimal_injective (List.append_cancel_right hmiddle.2)

/-- No name is tried twice. -/
theorem tried_injective (fileName : List Char) : Function.Injective (tried fileName) := by
  have hne : ∀ k, fileName ≠ numbered fileName k := by
    intro k h
    have hlen := congrArg List.length h
    rw [length_numbered] at hlen
    omega
  intro m n h
  cases m with
  | zero =>
    cases n with
    | zero => rfl
    | succ n => exact absurd h (hne (n + 1))
  | succ m =>
    cases n with
    | zero => exact absurd h.symm (hne (m + 1))
    | succ n => exact numbered_injective fileName h

/-- The loop ends at the first name tried that is free, after at most as many iterations as there
are files. -/
theorem exists_freeName (files : Files) (fileName : List Char) :
    ∃ k, (∀ fuel, files.keys.length ≤ fuel →
        freeName fuel files fileName = some (tried fileName k)) ∧
      tried fileName k ∉ files ∧ ∀ j < k, tried fileName j ∈ files := by
  have hmem : ∀ name, name ∈ files.keys.toFinset ↔ name ∈ files := by
    intro name
    rw [List.mem_toFinset, AList.mem_keys]
  obtain ⟨k, hloop, hk, hj⟩ := exists_whileLoop_notMem (tried_injective fileName)
    files.keys.toFinset (fun r ↦ isfile files r.tempFileName) (rename fileName) ⟨fileName, 1⟩
    Renaming.tempFileName
    (fun r ↦ by rw [hmem, isfile, AList.lookup_isSome])
    (fun k ↦ by rw [iterate_rename])
  rw [List.toFinset_card_of_nodup files.keys_nodup] at hloop
  refine ⟨k, ?_, ?_, ?_⟩
  · intro fuel hfuel
    rw [freeName, hloop fuel hfuel, iterate_rename]
    rfl
  · rwa [hmem] at hk
  · intro j hlt
    rw [← hmem]
    exact hj j hlt

/-! ### What `new` leaves of the files -/

private theorem newFile_of_freeName {fuel : Nat} {files : Files} {fileName name : List Char}
    (h : freeName fuel files fileName = some name) (self : TraceSet)
    (titleSpace sampleCoding dataSpace numberOfSamples : Nat) (xscale yscale : UInt32) :
    newFile fuel files self fileName titleSpace sampleCoding dataSpace numberOfSamples xscale
        yscale =
      some (name,
        files.insert name
          (self.new titleSpace sampleCoding dataSpace numberOfSamples xscale yscale).file,
        self.new titleSpace sampleCoding dataSpace numberOfSamples xscale yscale) := by
  rw [newFile, h, Option.bind_eq_bind, Option.bind_some]
  dsimp only
  rw [AList.insert_insert]
  rfl

/-- Writing to a name that was free leaves the other files alone. -/
theorem lookup_insert_of_free {files : Files} {name other : List Char} (hname : name ∉ files)
    (hother : other ∈ files) (content : List UInt8) :
    (files.insert name content).lookup other = files.lookup other := by
  apply AList.lookup_insert_ne
  rintro rfl
  exact hname hother

/-- For any files and any name, of any length, `new` ends within as many iterations of its loop as
there are files. It writes to a name that was free and leaves every file as it was; the name is the
given one or, where that is taken, the one with the smallest counter that is free. -/
theorem newFile_keeps_files (files : Files) (self : TraceSet) (fileName : List Char)
    (titleSpace sampleCoding dataSpace numberOfSamples : Nat) (xscale yscale : UInt32) :
    ∃ name files' self',
      (∀ fuel, files.keys.length ≤ fuel →
        newFile fuel files self fileName titleSpace sampleCoding dataSpace numberOfSamples xscale
          yscale = some (name, files', self')) ∧
      name ∉ files ∧
      (∀ other ∈ files, files'.lookup other = files.lookup other) ∧
      (fileName ∉ files → name = fileName) ∧
      (fileName ∈ files → ∃ k, 1 ≤ k ∧ name = numbered fileName k ∧
        ∀ j, 1 ≤ j → j < k → numbered fileName j ∈ files) := by
  obtain ⟨k, hloop, hfree, htaken⟩ := exists_freeName files fileName
  let self' := self.new titleSpace sampleCoding dataSpace numberOfSamples xscale yscale
  let files' := files.insert (tried fileName k) self'.file
  refine ⟨tried fileName k, files', self', ?_, hfree, ?_, ?_, ?_⟩
  · intro fuel hfuel
    exact newFile_of_freeName (hloop fuel hfuel) ..
  · intro other hother
    exact lookup_insert_of_free hfree hother _
  · intro hname
    cases k with
    | zero => rfl
    | succ k => exact absurd (htaken 0 (Nat.succ_pos k)) hname
  · intro hname
    cases k with
    | zero => exact absurd hname hfree
    | succ k =>
      refine ⟨k + 1, Nat.succ_pos k, rfl, ?_⟩
      intro j hpos hlt
      obtain ⟨j, rfl⟩ : ∃ i, j = i + 1 := ⟨j - 1, by omega⟩
      exact htaken (j + 1) hlt

-- a name of three characters gets its counter in front
example : numbered ['t', 'r', 's'] 1 = ['(', '1', ')', 't', 'r', 's'] := by decide

/-! ### One trace set after another -/

/-- A run of `runSetup.py`: the name it is given, the sizes of the set and the traces added. -/
structure Job where
  fileName : List Char
  shape : Shape
  traces : List Trace
  fits : ∀ t ∈ traces, t.Fits shape
  count : traces.length < 2 ^ 32

/-- The name and the files after one run, when it has ended. -/
def Job.run (np : Numpy) (fuel : Nat) (files : Files) (job : Job) : Option (List Char × Files) := do
  let (name, files, self) ← newFile fuel files {} job.fileName job.shape.titleSpace
    job.shape.dtype.coding job.shape.dataSpace job.shape.numberOfSamples job.shape.xscale
    job.shape.yscale
  let self ← (TraceSet.addTraces np self job.traces).toOption
  return (name, files.insert name self.file)

/-- Runs one after another. -/
def runJobs (np : Numpy) (fuel : Nat) : Files → List Job → Option (List (List Char) × Files)
  | files, [] => some ([], files)
  | files, job :: jobs => do
    let (name, files) ← job.run np fuel files
    let (names, files) ← runJobs np fuel files jobs
    return (name :: names, files)

/-- One run adds one file with its traces, under a name that was free. -/
theorem Job.exists_run (np : Numpy) (files : Files) (job : Job) :
    ∃ name content,
      (∀ fuel, files.keys.length ≤ fuel →
        job.run np fuel files = some (name, files.insert name content)) ∧
      name ∉ files ∧ TraceSet.Readable job.traces content := by
  obtain ⟨k, hloop, hfree, -⟩ := exists_freeName files job.fileName
  obtain ⟨self, hself, hfile⟩ := TraceSet.file_addTraces np job.shape job.traces job.fits
  refine ⟨tried job.fileName k, self.file, ?_, hfree, ?_⟩
  · intro fuel hfuel
    have hnew := newFile_of_freeName (hloop fuel hfuel) {} job.shape.titleSpace
      job.shape.dtype.coding job.shape.dataSpace job.shape.numberOfSamples job.shape.xscale
      job.shape.yscale
    rw [Job.run, hnew, Option.bind_eq_bind, Option.bind_some]
    dsimp only
    change ((TraceSet.addTraces np (TraceSet.newShape job.shape) job.traces).toOption.bind _) = _
    rw [hself]
    change some (_, AList.insert _ _ (AList.insert _ _ files)) = _
    rw [AList.insert_insert]
  · rw [hfile]
    exact TraceSet.readable_written np job.count job.fits

/-- A file of the run has the traces of the job. -/
def Holds (files : Files) (name : List Char) (job : Job) : Prop :=
  ∃ content, files.lookup name = some content ∧ TraceSet.Readable job.traces content

/-- Whatever names they are given, runs one after another leave every earlier file as it was, and
in the end each has a file of its own from which its traces are read. -/
theorem exists_runJobs (np : Numpy) (files : Files) (jobs : List Job) :
    ∃ names files',
      (∀ fuel, files.keys.length + jobs.length ≤ fuel →
        runJobs np fuel files jobs = some (names, files')) ∧
      (∀ other ∈ files, files'.lookup other = files.lookup other) ∧
      (∀ name ∈ names, name ∉ files) ∧ names.Nodup ∧
      List.Forall₂ (Holds files') names jobs := by
  induction jobs generalizing files with
  | nil => exact ⟨[], files, fun _ _ ↦ rfl, fun _ _ ↦ rfl, by simp, List.nodup_nil, .nil⟩
  | cons job jobs ih =>
    obtain ⟨name, content, hrun, hfree, hread⟩ := job.exists_run np files
    obtain ⟨names, files', hruns, hkeep, hnew, hnodup, hholds⟩ := ih (files.insert name content)
    have hkeys : (files.insert name content).keys.length = files.keys.length + 1 := by
      rw [AList.keys, AList.entries_insert_of_notMem hfree]
      rfl
    have hmem : ∀ other, other ∈ files.insert name content ↔ other = name ∨ other ∈ files :=
      fun _ ↦ AList.mem_insert _
    refine ⟨name :: names, files', ?_, ?_, ?_, ?_, ?_⟩
    · intro fuel hfuel
      rw [List.length_cons] at hfuel
      rw [runJobs, hrun fuel (by omega), Option.bind_eq_bind, Option.bind_some]
      dsimp only
      rw [hruns fuel (by omega)]
      rfl
    · intro other hother
      rw [hkeep other ((hmem other).mpr (.inr hother))]
      exact lookup_insert_of_free hfree hother content
    · intro other hother
      rcases List.mem_cons.mp hother with rfl | hother
      · exact hfree
      · exact fun h ↦ hnew other hother ((hmem other).mpr (.inr h))
    · apply List.nodup_cons.mpr
      exact ⟨fun h ↦ hnew name h ((hmem name).mpr (.inl rfl)), hnodup⟩
    · -- the later runs leave the file of this one
      refine .cons ⟨content, ?_, hread⟩ hholds
      rw [hkeep name ((hmem name).mpr (.inl rfl))]
      exact AList.lookup_insert files

/-- A run that is given the name `a.trs`. -/
def sampleJob : Job where
  fileName := ['a', '.', 't', 'r', 's']
  shape := TraceSet.sampleShape
  traces := TraceSet.sampleTraces
  fits := TraceSet.sampleTraces_fit
  count := by decide

/-- The second of two runs that are given the same name gets a file of its own. -/
theorem exists_runJobs_sameName :
    ∃ files',
      runJobs TraceSet.intNumpy 2 ∅ [sampleJob, sampleJob] =
        some ([['a', '.', 't', 'r', 's'], ['a', '(', '1', ')', '.', 't', 'r', 's']], files') ∧
      Holds files' ['a', '.', 't', 'r', 's'] sampleJob ∧
      Holds files' ['a', '(', '1', ')', '.', 't', 'r', 's'] sampleJob := by
  obtain ⟨names, files', hrun, -, -, -, hholds⟩ :=
    exists_runJobs TraceSet.intNumpy ∅ [sampleJob, sampleJob]
  have hruns := hrun 2 (by decide)
  have hnames : (runJobs TraceSet.intNumpy 2 ∅ [sampleJob, sampleJob]).map Prod.fst =
      some [['a', '.', 't', 'r', 's'], ['a', '(', '1', ')', '.', 't', 'r', 's']] := by
    decide +kernel
  rw [hruns] at hnames
  obtain rfl := Option.some.inj hnames
  rw [List.forall₂_cons, List.forall₂_cons] at hholds
  exact ⟨files', hruns, hholds.1, hholds.2.1⟩

end HorrorScope.Trs
