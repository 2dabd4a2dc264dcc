import ProgramIndex.Proofs.Linkage.Lockstep

/-!
The conversion of local ids between files. It goes over the global ids, except
within a file, where every id stands for itself. As the two directions of a map
are in lockstep, both ways agree: converting back and converting on lead
where they should.
-/

namespace ProgramIndex

/-- A conversion of the local ids of files that goes well with their global ids.
It can be undone, a conversion over a file on the way makes no difference, and
ids of two files are converted into each other exactly if they have the same
global id. -/
structure Coherent (global? : Nat → Int64 → Option Int64)
    (convert? : Nat → Int64 → Nat → Option Int64) : Prop where
  back : ∀ (f t : Nat) (v w : Int64), convert? f v t = some w → convert? t w f = some v
  onward : ∀ (f t : Nat) (v w : Int64), convert? f v t = some w →
    ∀ u : Nat, convert? t w u = convert? f v u
  same_global : ∀ (f t : Nat) (v w : Int64), f ≠ t →
    (convert? f v t = some w ↔ ∃ g, global? f v = some g ∧ global? t w = some g)

namespace Bimap

/-- The local id of the target that has the same global id. -/
def convert? (map : Bimap) (fid : Nat) (id : Int64) (target : Nat) : Option Int64 :=
  if fid = target then some id
  else (map.global? fid id).bind fun global => map.local? global target

/-- Within its file an id stands for itself, known or not. -/
theorem convert?_self (map : Bimap) (fid : Nat) (id : Int64) :
    map.convert? fid id fid = some id := by
  rw [convert?, if_pos rfl]

theorem convert?_of_ne (map : Bimap) {fid target : Nat} (id : Int64) (hOther : fid ≠ target) :
    map.convert? fid id target =
      (map.global? fid id).bind fun global => map.local? global target := by
  rw [convert?, if_neg hOther]

/-- Ids of different files are converted into each other exactly if they have the same
global id. -/
theorem Lockstep.convert?_eq_some_iff {map : Bimap} (h : map.Lockstep) {f t : Nat} {v w : Int64}
    (hOther : f ≠ t) :
    map.convert? f v t = some w ↔ ∃ g, map.global? f v = some g ∧ map.global? t w = some g := by
  rw [map.convert?_of_ne v hOther, Option.bind_eq_some_iff]
  apply exists_congr
  intro g
  rw [h.paired t w g]

/-- Ids with the same global id are converted alike, into any other file. Their
own files are no exception, since the table leads back to them. -/
theorem Lockstep.convert?_congr {map : Bimap} (h : map.Lockstep) {f t : Nat} {v w g : Int64}
    (hFirst : map.global? f v = some g) (hSecond : map.global? t w = some g) (u : Nat) :
    map.convert? t w u = map.convert? f v u := by
  have hTable : ∀ (file : Nat) (id : Int64), map.global? file id = some g →
      map.convert? file id u = map.local? g u := by
    intro file id hGlobal
    by_cases hFile : file = u
    · subst hFile
      rw [map.convert?_self, (h.paired file id g).mp hGlobal]
    · rw [map.convert?_of_ne id hFile, hGlobal, Option.bind_some]
  rw [hTable t w hSecond, hTable f v hFirst]

/-- All that coherence asks for follows from the two directions being inverse to each other.
-/
theorem Lockstep.coherent {map : Bimap} (h : map.Lockstep) : Coherent map.global? map.convert? where
  back f t v w hConvert := by
    by_cases hFile : f = t
    · subst hFile
      rw [map.convert?_self] at hConvert
      rw [map.convert?_self, Option.some.inj hConvert]
    · obtain ⟨g, hFirst, hSecond⟩ := (h.convert?_eq_some_iff hFile).mp hConvert
      exact (h.convert?_eq_some_iff (Ne.symm hFile)).mpr ⟨g, hSecond, hFirst⟩
  onward f t v w hConvert := by
    by_cases hFile : f = t
    · subst hFile
      rw [map.convert?_self] at hConvert
      rw [Option.some.inj hConvert]
      exact fun _ => rfl
    · obtain ⟨g, hFirst, hSecond⟩ := (h.convert?_eq_some_iff hFile).mp hConvert
      exact h.convert?_congr hFirst hSecond
  same_global f t v w hOther := h.convert?_eq_some_iff hOther

end Bimap

namespace Linkage

/-- In a program of several files, the conversions of variables and of structs are
coherent after every run. -/
theorem convert_coherent_of_run {start m : Linkage} {ops : List Operation} (hStart : Fresh start)
    (run : transitions.Run start ops m) (hFiles : m.singleFile = false) :
    Coherent (fun f v => m.globalVar? ⟨f, v⟩) (fun f v t => m.convertVar? ⟨f, v⟩ t) ∧
      Coherent (fun f k => m.globalKey? ⟨f, k⟩) (fun f k t => m.convertKey? ⟨f, k⟩ t) := by
  obtain ⟨hVarLockstep, hKeyLockstep⟩ := maps_lockstep hStart run
  have hVars := hVarLockstep.coherent
  have hKeys := hKeyLockstep.coherent
  simp only [convertVar?, globalVar?, convertKey?, globalKey?, hFiles, Bool.false_eq_true,
    if_false]
  exact ⟨hVars, hKeys⟩

/-- Three files share a variable and a struct, after one of them has given its
variable another number. -/
theorem convert_coherent_over_three_files :
    ∃ m, transitions.Run (new false)
        [.addKey ⟨2, 9⟩ 1, .addKey ⟨1, 4⟩ 1, .addVar ⟨1, 8⟩ 20, .addVar ⟨3, 5⟩ 20, .addVar ⟨2, 6⟩ 20,
          .addVar ⟨1, 7⟩ 20] m ∧
      m.singleFile = false ∧
      m.convertVar? ⟨1, 8⟩ 2 = some 6 ∧ m.convertVar? ⟨2, 6⟩ 3 = some 5 ∧
      m.convertVar? ⟨1, 7⟩ 2 = none ∧ m.convertKey? ⟨1, 4⟩ 2 = some 9 ∧
      Coherent (fun f v => m.globalVar? ⟨f, v⟩) (fun f v t => m.convertVar? ⟨f, v⟩ t) ∧
      Coherent (fun f k => m.globalKey? ⟨f, k⟩) (fun f k t => m.convertKey? ⟨f, k⟩ t) := by
  have run := ((((((Transitions.RunWithin.refl : transitions.Run (new false) [] _).step
    (.addVar ⟨1, 7⟩ 20) trivial trivial).step (.addVar ⟨2, 6⟩ 20) trivial trivial).step
    (.addVar ⟨3, 5⟩ 20) trivial trivial).step (.addVar ⟨1, 8⟩ 20) trivial trivial).step
    (.addKey ⟨1, 4⟩ 1) trivial trivial).step (.addKey ⟨2, 9⟩ 1) trivial trivial
  exact ⟨_, run, rfl, by decide +kernel, by decide +kernel, by decide +kernel,
    by decide +kernel, convert_coherent_of_run (.new false) run rfl⟩

end Linkage

end ProgramIndex
