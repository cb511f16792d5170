import HorrorScope.Acq.Acquisition
import HorrorScope.Acq.SlowAes
import HorrorScope.Trs.RoundTrip

/-!
# From the target to the reader of the trace file

The acquisition script writes each recorded input and output with the samples of the scope to a
trace set (`src/acq/runSetup.py:55-59,98-101`), and `src/acq/TraceView.py` opens the file and loops
over it. What the reader gets is what the target has encrypted.
-/

namespace HorrorScope.Acq

open HorrorScope.Base HorrorScope.Aes HorrorScope.Trs

/-- The number of samples of a trace: `int(numSamples/2)` with the twelve bits of the script. -/
def samplesPerTrace : Nat := 1250

/-- The set that the script creates (`src/acq/runSetup.py:57`). -/
def outputShape : Shape where
  titleSpace := 0
  dataSpace := 32
  numberOfSamples := samplesPerTrace
  dtype := .float32
  xscale := 0
  yscale := 0
  titleSpace_lt := by decide
  dataSpace_lt := by decide
  numberOfSamples_lt := by decide

/-- `Trace(b'',data,samples )`, with the `float32` samples of `getSamples`. -/
def savedTrace (x : Recorded) (samples : List.Vector UInt32 samplesPerTrace) : Trace :=
  ⟨[], x.data.map UInt8.toNat, .floats samples.toList⟩

/-- The traces of a run, with the samples of each. -/
def savedTraces (recorded : List Recorded)
    (samples : List (List.Vector UInt32 samplesPerTrace)) : List Trace :=
  List.zipWith savedTrace recorded samples

/-- A trace whose output is decrypted to its input. -/
def Decrypts (t : Trace) : Prop :=
  ∃ dataIn out : Block, t.data = (dataIn.toList ++ out.toList).map UInt8.toNat ∧
    invCipher schedule out = dataIn

private theorem mapM_ok {ε α β : Type} {f : α → Except ε β} {g : α → β} {l : List α}
    (h : ∀ x ∈ l, f x = .ok (g x)) : l.mapM f = .ok (l.map g) := by
  induction l with
  | nil => rfl
  | cons x l ih =>
    rw [List.forall_mem_cons] at h
    rw [List.mapM_cons, h.1, ih h.2]
    rfl

/-- A loop over a set yields its traces in order. -/
theorem iter_of_getTrace {r : TraceSet} {ts : List Trace} (hn : r.numberOfTraces = some ts.length)
    (h : ∀ i (hi : i < ts.length), r.getTrace i = .ok (some ts[i])) :
    r.iter = .ok (ts.map some) := by
  have hget : ∀ i ∈ List.range ts.length, r.getTrace i = .ok ts[i]? := by
    intro i hi
    have hlt := List.mem_range.mp hi
    rw [h i hlt, List.getElem?_eq_getElem hlt]
  rw [TraceSet.iter, hn]
  refine (mapM_ok hget).trans (congrArg _ ?_)
  apply List.ext_getElem
  · simp
  · intro i hi hi'
    simp at hi
    simp [hi]

/-- A recorded trace fits the set and is decrypted to its input. -/
theorem fits_savedTrace {x : Recorded} (h : Acquisition.Paired encrypt x)
    (samples : List.Vector UInt32 samplesPerTrace) :
    (savedTrace x samples).Fits outputShape ∧ Decrypts (savedTrace x samples) := by
  rw [Acquisition.Paired] at h
  refine ⟨⟨rfl, ?_, ?_, samples.toList_length, rfl⟩, x.dataIn, encrypt x.dataIn, ?_,
    invCipher_cipher schedule x.dataIn⟩
  · change (x.data.map UInt8.toNat).length = 32
    rw [h, List.length_map, List.length_append, List.Vector.toList_length,
      List.Vector.toList_length]
  · intro b hb
    obtain ⟨d, -, rfl⟩ := List.mem_map.mp hb
    exact d.toNat_lt
  · exact congrArg _ h

private theorem forall_savedTraces {recorded : List Recorded}
    {samples : List (List.Vector UInt32 samplesPerTrace)} {P : Trace → Prop}
    (h : ∀ x ∈ recorded, ∀ v, P (savedTrace x v)) : ∀ t ∈ savedTraces recorded samples, P t := by
  intro t ht
  rw [savedTraces, ← List.map_uncurry_zip_eq_zipWith, List.mem_map] at ht
  obtain ⟨⟨x, v⟩, hzip, rfl⟩ := ht
  exact h x (List.of_mem_zip hzip).1 v

/-- In every run in which `testTarget` accepts only the last reply the target has under way, and
with any samples of the scope, the script writes a file that `TraceView.py` opens and whose loop
yields all recorded traces in their order; `inv_cipher` decrypts the second half of the data of each
to its first half. -/
theorem iter_recorded (np : Numpy) (evs : List Event)
    (hevs : Guarded (Acquisition.step encrypt) Acquisition.LastReply .start evs)
    (samples : List (List.Vector UInt32 samplesPerTrace)) :
    let recorded := (run (Acquisition.step encrypt) .start evs).recorded
    samples.length = recorded.length → recorded.length < 2 ^ 32 →
      ∃ w r, TraceSet.addTraces np (TraceSet.newShape outputShape) (savedTraces recorded samples) =
          .ok w ∧
        TraceSet.open {} w.file = .ok r ∧
        r.iter = .ok ((savedTraces recorded samples).map some) ∧
        (savedTraces recorded samples).length = recorded.length ∧
        ∀ t ∈ savedTraces recorded samples, Decrypts t := by
  intro recorded hlen hn
  have hpaired := (Acquisition.inv_run hevs).paired
  have hfits : ∀ t ∈ savedTraces recorded samples, t.Fits outputShape :=
    forall_savedTraces fun x hx v ↦ (fits_savedTrace (hpaired x hx) v).1
  have hlength : (savedTraces recorded samples).length = recorded.length := by
    rw [savedTraces, List.length_zipWith, hlen, Nat.min_self]
  rw [← hlength] at hn
  obtain ⟨w, hw, hfile⟩ := TraceSet.file_addTraces np outputShape _ hfits
  refine ⟨w, _, hw, (congrArg _ hfile).trans (TraceSet.open_written np hn hfits), ?_, hlength, ?_⟩
  · exact iter_of_getTrace rfl fun i hi ↦ TraceSet.getTrace_written np hfits _ hi
  · exact forall_savedTraces fun x hx v ↦ (fits_savedTrace (hpaired x hx) v).2

/-- One recorded trace. -/
theorem iter_recorded_synchronised :
    ∃ w r, TraceSet.addTraces TraceSet.intNumpy (TraceSet.newShape outputShape)
        (savedTraces (run (Acquisition.step encrypt) .start Acquisition.synchronised).recorded
          [.replicate _ 0]) = .ok w ∧
      TraceSet.open {} w.file = .ok r ∧
      ∃ ts : List Trace, r.iter = .ok (ts.map some) ∧ ts.length = 1 ∧ ∀ t ∈ ts, Decrypts t := by
  have hone : (run (Acquisition.step encrypt) .start Acquisition.synchronised).recorded.length =
      1 := by decide +kernel
  obtain ⟨w, r, hw, hr, hiter, hlength, hall⟩ :=
    iter_recorded TraceSet.intNumpy Acquisition.synchronised (by decide +kernel) [.replicate _ 0]
      hone.symm (by rw [hone]; norm_num)
  exact ⟨w, r, hw, hr, _, hiter, hlength.trans hone, hall⟩

end HorrorScope.Acq
