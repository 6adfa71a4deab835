/-
A heap in the hands of a host that allocates, copies handles and drops them, reads and stores cells, and
asks for collections, in any order. Every use keeps the tracking sound, so the table has exactly one entry
for each object that is referenced.

A sweep sets the next one to twice the entries it leaves, which are the objects referenced at that moment.
The table is within that bound from then on, whatever is let go in the meantime: it is a bound by the
objects that were referenced at the last sweep, not by those that are now.
-/
import ObjectMachine.Proofs.Heap.Referenced

namespace ObjectMachine

/-! ## Definitions -/

/-- A heap, and what its host has of it. -/
structure HostedHeap where
  heap : Heap := {}
  /-- The handles that the host holds, as often as it holds them. -/
  held : List Handle := []
  /-- The handles that allocations have answered, in their order. -/
  given : List Handle := []
  /-- How many entries the last sweep left. -/
  kept : Nat := 0

/-- What a host does with a heap. Only a handle that it holds can be copied, read through, dropped or
stored; to name another one does nothing. -/
inductive Heap.Use where
  | allocate (c : Class)
  | copy (ref : Handle)
  /-- Takes what a cell refers to. -/
  | fetch (ref : Handle) (slot : Nat)
  | drop (ref : Handle)
  | store (ref : Handle) (slot : Nat) (v : Value)
  | collect

def Heap.Use.isAllocation : Heap.Use → Bool
  | .allocate _ => true
  | _ => false

namespace HostedHeap

def use (s : HostedHeap) : Heap.Use → HostedHeap
  | .allocate c =>
    let (ref, heap) := s.heap.allocate c s.held
    { heap, held := ref :: s.held, given := s.given ++ [ref]
      kept := if s.heap.isFull then (s.heap.sweep s.held).2.table.size else s.kept }
  | .copy ref => if ref ∈ s.held then { s with held := ref :: s.held } else s
  | .fetch ref slot =>
    if ref ∈ s.held then { s with held := (s.heap.cell? ref slot).toList.flatMap Value.handles ++ s.held } else s
  | .drop ref => { s with held := s.held.erase ref }
  | .store ref slot v =>
    if ref ∈ s.held ∧ v.handles ⊆ s.held then
      match s.heap.setCell? ref slot v with
      | .ok heap => { s with heap }
      | .error _ => s
    else s
  | .collect =>
    let (_, heap) := s.heap.collect s.held
    { s with heap, kept := heap.table.size }

/-- What has become of an empty heap. -/
def run (uses : List Heap.Use) : HostedHeap := uses.foldl use {}

/-- From one to the other the tracking stays as it is, and no object is referenced that was not. -/
structure Quiet (s s' : HostedHeap) : Prop where
  table : s'.heap.table = s.heap.table
  threshold : s'.heap.threshold = s.heap.threshold
  published : s'.heap.tracked = s.heap.tracked
  allocated : s'.heap.allocated = s.heap.allocated
  given : s'.given = s.given
  kept : s'.kept = s.kept
  referenced : s'.heap.referenced s'.held ⊆ s.heap.referenced s.held

noncomputable def live (s : HostedHeap) : Nat := s.heap.live s.held

/-- The most objects that were referenced at once. -/
noncomputable def peak (uses : List Heap.Use) : Nat :=
  (Finset.range (uses.length + 1)).sup fun n => (run (uses.take n)).live

end HostedHeap

/-- As many allocations as given, and then every handle they have answered is dropped. -/
def Heap.Use.burst (c : Class) (n : Nat) : List Heap.Use :=
  List.replicate n (.allocate c) ++ ((List.range n).map Handle.mk).reverse.map .drop

/-! ## Hosted heaps -/

namespace HostedHeap

variable {s : HostedHeap}

/-- A sweep before an allocation, if the table is full. -/
def makeRoom (s : HostedHeap) : HostedHeap :=
  if s.heap.isFull then
    { s with heap := (s.heap.sweep s.held).2, kept := (s.heap.sweep s.held).2.table.size }
  else s

theorem makeRoom_objects (s : HostedHeap) : s.makeRoom.heap.objects = s.heap.objects := by
  unfold makeRoom
  split <;> rfl

theorem makeRoom_next (s : HostedHeap) : s.makeRoom.heap.next = s.heap.next := by
  simp only [Heap.next, makeRoom_objects]

theorem use_allocate (s : HostedHeap) (c : Class) : s.use (.allocate c) =
    { heap := s.makeRoom.heap.add c, held := s.heap.next :: s.held
      given := s.given ++ [s.heap.next], kept := s.makeRoom.kept } := by
  unfold makeRoom
  by_cases hfull : s.heap.isFull = true
  · simp [use, Heap.allocate, hfull]
  · simp [use, Heap.allocate, hfull]

/-- What the tracking of a hosted heap is like between any two uses. -/
structure Sound (s : HostedHeap) : Prop where
  tracks : s.heap.Tracks s.held s.kept
  published : s.heap.tracked = s.heap.table.size
  given : s.given = (List.range s.heap.allocated).map Handle.mk

theorem sound_empty : Sound {} where
  tracks :=
    { nodup := List.nodup_nil
      allocated := by rintro ref ⟨⟩
      complete := by
        rintro ref ⟨S, hS, hmem⟩
        rcases hS ref hmem with hroot | ⟨other, -, hcell⟩
        · cases hroot
        · cases hcell
      threshold := rfl
      size_le := Nat.zero_le _ }
  published := rfl
  given := rfl

theorem makeRoom_tracks (ht : s.heap.Tracks s.held s.kept) :
    s.makeRoom.heap.Tracks s.held s.makeRoom.kept ∧ s.makeRoom.heap.isFull = false := by
  unfold makeRoom
  by_cases hfull : s.heap.isFull = true
  · rw [if_pos hfull]
    exact ⟨ht.sweep, Heap.Tracks.sweep_room _ _⟩
  · rw [if_neg hfull]
    exact ⟨ht, by simpa using hfull⟩

theorem Quiet.rfl (s : HostedHeap) : s.Quiet s := ⟨.refl _, .refl _, .refl _, .refl _, .refl _, .refl _, .rfl⟩

/-- To hold other handles on objects that are referenced is quiet. -/
theorem quiet_held {held : List Handle} (hheld : ∀ ref ∈ held, ref ∈ s.heap.referenced s.held) :
    s.Quiet { s with held } :=
  ⟨.refl _, .refl _, .refl _, .refl _, .refl _, .refl _, Heap.referenced_roots hheld⟩

/-- A use allocates an object, collects, or is quiet. -/
theorem use_cases (s : HostedHeap) (u : Heap.Use) :
    (∃ c, u = .allocate c) ∨ u = .collect ∨ u.isAllocation = false ∧ s.Quiet (s.use u) := by
  cases u with
  | allocate c => exact .inl ⟨c, rfl⟩
  | collect => exact .inr (.inl rfl)
  | copy ref =>
    refine .inr (.inr ⟨rfl, ?_⟩)
    by_cases href : ref ∈ s.held
    · simp only [use, if_pos href]
      apply quiet_held
      rintro x (⟨⟩ | ⟨_, hx⟩)
      · exact Heap.root_referenced _ href
      · exact Heap.root_referenced _ hx
    · simp only [use, if_neg href]
      exact .rfl s
  | fetch ref slot =>
    refine .inr (.inr ⟨rfl, ?_⟩)
    by_cases href : ref ∈ s.held
    · simp only [use, if_pos href]
      apply quiet_held
      intro x hx
      rcases List.mem_append.1 hx with hcell | hold
      · exact Heap.referenced_of_cell (Heap.root_referenced _ href) (Heap.mem_references_of_cell hcell)
      · exact Heap.root_referenced _ hold
    · simp only [use, if_neg href]
      exact .rfl s
  | drop ref =>
    refine .inr (.inr ⟨rfl, quiet_held fun x hx => ?_⟩)
    exact Heap.root_referenced _ (List.mem_of_mem_erase hx)
  | store ref slot v =>
    refine .inr (.inr ⟨rfl, ?_⟩)
    by_cases hheld : ref ∈ s.held ∧ v.handles ⊆ s.held
    · simp only [use, if_pos hheld]
      cases hstore : s.heap.setCell? ref slot v with
      | error e => exact .rfl s
      | ok heap =>
        obtain rfl := Heap.setCell?_ok hstore
        exact ⟨.refl _, .refl _, .refl _, Heap.allocated_setCell _ _ _ _, .refl _, .refl _,
          Heap.referenced_setCell hheld.2⟩
    · simp only [use, if_neg hheld]
      exact .rfl s

/-- A use keeps the tracking sound. -/
theorem Sound.use (hs : s.Sound) (u : Heap.Use) : (s.use u).Sound := by
  rcases s.use_cases u with ⟨c, rfl⟩ | rfl | ⟨-, hquiet⟩
  · obtain ⟨ht, hroom⟩ := makeRoom_tracks hs.tracks
    rw [use_allocate]
    refine ⟨?_, rfl, ?_⟩
    · have hadd := ht.add c hroom
      rwa [makeRoom_next] at hadd
    · have hallocated : (s.makeRoom.heap.add c).allocated = s.heap.allocated + 1 := by
        simp [Heap.add, Heap.allocated, makeRoom_objects]
      simp only [hallocated, List.range_succ, List.map_append, hs.given]
      rfl
  · exact ⟨hs.tracks.sweep.of_subset rfl rfl rfl (Heap.referenced_congr rfl _).le, rfl, hs.given⟩
  · refine ⟨?_, ?_, ?_⟩
    · rw [hquiet.kept]
      exact hs.tracks.of_subset hquiet.table hquiet.threshold hquiet.allocated hquiet.referenced
    · rw [hquiet.published, hquiet.table]
      exact hs.published
    · rw [hquiet.given, hquiet.allocated]
      exact hs.given

theorem run_snoc (uses : List Heap.Use) (u : Heap.Use) : run (uses ++ [u]) = (run uses).use u := by
  simp only [run, List.foldl_append, List.foldl_cons, List.foldl_nil]

/-- Whatever a host has done, the tracking is sound. -/
theorem run_sound (uses : List Heap.Use) : (run uses).Sound := by
  induction uses using List.reverseRecOn with
  | nil => exact sound_empty
  | append_singleton uses u ih =>
    rw [run_snoc]
    exact ih.use u

theorem use_allocated (s : HostedHeap) (u : Heap.Use) :
    (s.use u).heap.allocated = s.heap.allocated + if u.isAllocation then 1 else 0 := by
  rcases s.use_cases u with ⟨c, rfl⟩ | rfl | ⟨hnone, hquiet⟩
  · simp [use_allocate, Heap.add, Heap.allocated, makeRoom_objects, Heap.Use.isAllocation]
  · rfl
  · simp [hquiet.allocated, hnone]

theorem run_allocated (uses : List Heap.Use) :
    (run uses).heap.allocated = uses.countP Heap.Use.isAllocation := by
  induction uses using List.reverseRecOn with
  | nil => rfl
  | append_singleton uses u ih =>
    rw [run_snoc, use_allocated, ih, List.countP_append, List.countP_singleton]

/-- A sweep leaves the objects that are referenced then. -/
theorem use_kept (hs : s.Sound) (u : Heap.Use) : (s.use u).kept = s.kept ∨ (s.use u).kept = s.live := by
  rcases s.use_cases u with ⟨c, rfl⟩ | rfl | ⟨-, hquiet⟩
  · rw [use_allocate]
    unfold makeRoom
    split
    · exact .inr hs.tracks.size_sweep
    · exact .inl rfl
  · exact .inr hs.tracks.size_sweep
  · exact .inl hquiet.kept

theorem live_le_peak (uses : List Heap.Use) : (run uses).live ≤ peak uses := by
  have hle := Finset.le_sup (f := fun n => (run (uses.take n)).live)
    (Finset.mem_range.2 (Nat.lt_succ_self uses.length))
  rwa [List.take_length] at hle

theorem peak_mono (uses : List Heap.Use) (u : Heap.Use) : peak uses ≤ peak (uses ++ [u]) := by
  refine Finset.sup_le fun n hn => ?_
  rw [Finset.mem_range] at hn
  have hlater : n ∈ Finset.range ((uses ++ [u]).length + 1) := by
    rw [Finset.mem_range, List.length_append]
    omega
  have hle := Finset.le_sup (f := fun n => (run ((uses ++ [u]).take n)).live) hlater
  rwa [List.take_append_of_le_length (by omega)] at hle

theorem kept_le_peak (uses : List Heap.Use) : (run uses).kept ≤ peak uses := by
  induction uses using List.reverseRecOn with
  | nil => exact Nat.zero_le _
  | append_singleton uses u ih =>
    rw [run_snoc]
    refine le_trans ?_ (peak_mono uses u)
    rcases use_kept (run_sound uses) u with h | h
    · rw [h]
      exact ih
    · rw [h]
      exact live_le_peak uses

/-! ## Allocations -/

theorem Sound.live_allocate (hs : s.Sound) (c : Class) : (s.use (.allocate c)).live = s.live + 1 := by
  have hadd := (makeRoom_tracks hs.tracks).1.live_add c
  rw [makeRoom_next] at hadd
  rw [use_allocate, live, live, hadd, Heap.live, Heap.live, Heap.referenced_congr s.makeRoom_objects]

/-- An allocation that sweeps leaves the objects that are referenced, and the new one. -/
theorem Sound.allocate_full (hs : s.Sound) (c : Class) (hfull : s.heap.isFull = true) :
    (s.use (.allocate c)).heap.tracked = s.live + 1 ∧ (s.use (.allocate c)).kept = s.live := by
  have hsize : (s.heap.sweep s.held).2.table.size = s.live := hs.tracks.size_sweep
  rw [use_allocate, makeRoom, if_pos hfull]
  refine ⟨?_, hsize⟩
  show ((s.heap.sweep s.held).2.table.push _).size = _
  rw [Array.size_push, hsize]

/-- Any other allocation adds an entry. -/
theorem Sound.allocate_room (hs : s.Sound) (c : Class) (hroom : s.heap.isFull = false) :
    (s.use (.allocate c)).heap.tracked = s.heap.tracked + 1 ∧ (s.use (.allocate c)).kept = s.kept := by
  rw [use_allocate, makeRoom, if_neg (by simpa using hroom), hs.published]
  refine ⟨?_, rfl⟩
  show (s.heap.table.push _).size = _
  rw [Array.size_push]

/-- Dropping what is held leaves nothing held, and changes nothing else. -/
theorem drop_held (refs : List Handle) :
    ∀ s : HostedHeap, s.held = refs → (refs.map Heap.Use.drop).foldl use s = { s with held := [] } := by
  induction refs with
  | nil =>
    intro s hheld
    show s = { s with held := [] }
    rw [← hheld]
  | cons ref refs ih =>
    intro s hheld
    have hdrop : (s.use (.drop ref)).held = refs := by
      show s.held.erase ref = refs
      rw [hheld, List.erase_cons_head]
    rw [List.map_cons, List.foldl_cons, ih _ hdrop]
    rfl

section Bursts

variable (c : Class) (n : Nat)

theorem run_replicate_succ :
    run (List.replicate (n + 1) (.allocate c)) = (run (List.replicate n (.allocate c))).use (.allocate c) := by
  rw [List.replicate_succ', run_snoc]

theorem allocated_replicate : (run (List.replicate n (.allocate c))).heap.allocated = n := by
  rw [run_allocated, List.countP_replicate]
  rfl

theorem held_replicate :
    (run (List.replicate n (.allocate c))).held = ((List.range n).map Handle.mk).reverse := by
  induction n with
  | zero => rfl
  | succ n ih =>
    have hnext : (run (List.replicate n (.allocate c))).heap.next = ⟨n⟩ :=
      congrArg Handle.mk (allocated_replicate c n)
    rw [run_replicate_succ, use_allocate, ih, hnext, List.range_succ, List.map_append, List.reverse_append]
    rfl

theorem references_replicate (ref : Handle) :
    (run (List.replicate n (.allocate c))).heap.references ref = [] := by
  induction n with
  | zero => rfl
  | succ n ih =>
    rw [run_replicate_succ, use_allocate, Heap.references_add, Heap.references_congr (makeRoom_objects _), ih,
      ite_self]

theorem live_replicate : (run (List.replicate n (.allocate c))).live = n := by
  induction n with
  | zero =>
    have hle := sound_empty.tracks.live_le_size
    exact Nat.le_zero.1 hle
  | succ n ih => rw [run_replicate_succ, (run_sound _).live_allocate, ih]

/-- After a burst the table has all of its objects, and none of them is referenced. -/
theorem run_burst : (run (Heap.Use.burst c n)).heap.table.size = n ∧ (run (Heap.Use.burst c n)).live = 0 := by
  have hs := run_sound (List.replicate n (.allocate c))
  have hrun : run (Heap.Use.burst c n) = { run (List.replicate n (.allocate c)) with held := [] } := by
    rw [Heap.Use.burst, run, List.foldl_append]
    exact drop_held _ _ (held_replicate c n)
  rw [hrun]
  constructor
  · have hlow : (run (List.replicate n (.allocate c))).live ≤ _ := hs.tracks.live_le_size
    have hhigh := hs.tracks.size_le_allocated
    rw [live_replicate] at hlow
    rw [allocated_replicate] at hhigh
    exact Nat.le_antisymm hhigh hlow
  · have hnone : (run (List.replicate n (.allocate c))).heap.referenced [] = ∅ := by
      refine Set.eq_empty_of_forall_notMem ?_
      rintro ref ⟨S, hS, hmem⟩
      rcases hS ref hmem with hroot | ⟨other, -, hcell⟩
      · cases hroot
      · rw [references_replicate] at hcell
        cases hcell
    rw [live, Heap.live, hnone, Set.ncard_empty]

end Bursts

end HostedHeap

/-! ## Main statements -/

/-- Tracking loses no object that is referenced, and has none twice. Whatever a host has done with a heap,
the allocations have answered the numbers from one up; every object still referenced has one entry in the
table, and no entry is repeated; the length made known is that of the table. This is at most the threshold,
which is twice what the last sweep left or the floor, and so at most twice the objects that were referenced
at once, or the floor. A collection then answers how many entries it removes and leaves those of the
objects that are referenced, and nothing else changes but its count. -/
theorem tracking_exact (uses : List Heap.Use) :
    let s := HostedHeap.run uses
    let allocations := uses.countP Heap.Use.isAllocation
    (s.given.map Handle.number = List.range' 1 allocations ∧ s.heap.allocated = allocations) ∧
    (∀ ref ∈ s.heap.referenced s.held, s.heap.table.toList.count ref = 1) ∧ s.heap.table.toList.Nodup ∧
    s.heap.tracked = s.heap.table.size ∧
    (s.heap.table.size ≤ s.heap.threshold ∧ s.heap.threshold = max 1024 (2 * s.kept)) ∧
    s.heap.tracked ≤ max 1024 (2 * HostedHeap.peak uses) ∧
    let (swept, heap) := s.heap.collect s.held
    swept + heap.table.size = s.heap.table.size ∧ heap.table.toList.Sublist s.heap.table.toList ∧
    (∀ ref, ref ∈ heap.table.toList ↔ ref ∈ s.heap.referenced s.held) ∧
    heap.tracked = heap.table.size ∧ heap.objects = s.heap.objects ∧
    heap.collections = s.heap.collections + 1 := by
  intro s allocations
  have hs : s.Sound := HostedHeap.run_sound uses
  have hallocated : s.heap.allocated = allocations := HostedHeap.run_allocated uses
  refine ⟨⟨?_, hallocated⟩, fun ref href => ?_, hs.tracks.nodup, hs.published,
    ⟨hs.tracks.size_le, hs.tracks.threshold⟩, ?_, s.heap.sweep_swept s.held, s.heap.sweep_sublist s.held,
    hs.tracks.mem_sweep, rfl, rfl, rfl⟩
  · rw [hs.given, hallocated, List.map_map, List.range'_eq_map_range]
    refine List.map_congr_left fun i _ => ?_
    exact Nat.add_comm i 1
  · exact List.count_eq_one_of_mem hs.tracks.nodup (hs.tracks.complete ref href)
  · have hkept : s.kept ≤ HostedHeap.peak uses := HostedHeap.kept_le_peak uses
    have hsize := hs.tracks.size_le
    have hfloor : sweepFloor = 1024 := rfl
    rw [hs.tracks.threshold] at hsize
    rw [hs.published]
    omega

/-- How an allocation changes the length of the table. One that sweeps leaves an entry for each object
referenced, the new one among them; any other adds an entry and leaves the bound of the last sweep as it is.
So the table is within twice the objects referenced, or the floor, after each allocation at which these are
no fewer than the last sweep has left. -/
theorem tracked_after_allocation (uses : List Heap.Use) (c : Class) :
    let before := HostedHeap.run uses
    let s := HostedHeap.run (uses ++ [.allocate c])
    s.live = before.live + 1 ∧
    (before.heap.isFull = true → s.heap.tracked = s.live ∧ s.kept = before.live) ∧
    (before.heap.isFull = false → s.heap.tracked = before.heap.tracked + 1 ∧ s.kept = before.kept) ∧
    s.heap.tracked ≤ max 1024 (2 * s.kept) ∧
    (s.kept ≤ s.live → s.heap.tracked ≤ max 1024 (2 * s.live)) := by
  intro before s
  have hbefore : before.Sound := HostedHeap.run_sound uses
  have hs : s.Sound := HostedHeap.run_sound _
  have hstep : s = before.use (.allocate c) := HostedHeap.run_snoc uses _
  have hlive : s.live = before.live + 1 := by
    rw [hstep]
    exact hbefore.live_allocate c
  have hbound : s.heap.tracked ≤ max 1024 (2 * s.kept) := by
    have hsize := hs.tracks.size_le
    rw [hs.tracks.threshold] at hsize
    rw [hs.published]
    exact hsize
  refine ⟨hlive, fun hfull => ?_, fun hroom => ?_, hbound, fun hkept => ?_⟩
  · rw [hlive, hstep]
    exact hbefore.allocate_full c hfull
  · rw [hstep]
    exact hbefore.allocate_room c hroom
  · omega

/-- A class without fields. -/
def pebble : Class where
  id := 0
  scope := 1
  source := { name := "Pebble" }
  ancestors := []
  fields := []
  constructors := []
  methods := {}

/-- The bound follows the last sweep, not the objects referenced now: after 1025 allocations the table has
been swept while all objects were held, so when these have been dropped another allocation leaves all
entries where they are, with a single object referenced. -/
theorem tracked_exceeds_live :
    let s := HostedHeap.run (Heap.Use.burst pebble 1025 ++ [.allocate pebble])
    s.live = 1 ∧ s.heap.tracked = 1026 ∧ ¬ s.heap.tracked ≤ max 1024 (2 * s.live) + 1 := by
  intro s
  have hbefore := HostedHeap.run_sound (Heap.Use.burst pebble 1025)
  have hstep : s = (HostedHeap.run (Heap.Use.burst pebble 1025)).use (.allocate pebble) :=
    HostedHeap.run_snoc _ _
  obtain ⟨hsize, hnone⟩ := HostedHeap.run_burst pebble 1025
  have hroom : (HostedHeap.run (Heap.Use.burst pebble 1025)).heap.isFull = false := by
    -- the threshold is even where it is above the floor, so a table of odd length is below it
    have hle := hbefore.tracks.size_le
    have hthreshold := hbefore.tracks.threshold
    have hfloor : sweepFloor = 1024 := rfl
    simp only [Heap.isFull, decide_eq_false_iff_not]
    omega
  have hlive : s.live = 1 := by
    rw [hstep, hbefore.live_allocate, hnone]
  have htracked : s.heap.tracked = 1026 := by
    rw [hstep, (hbefore.allocate_room pebble hroom).1, hbefore.published, hsize]
  refine ⟨hlive, htracked, ?_⟩
  rw [hlive, htracked]
  omega

end ObjectMachine
