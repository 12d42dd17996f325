import Mira.WorldState.Runs

/-!
What holds of the state after every run: it is valid, the table and the ring keep their bounds,
the entries of the ring are numbered one after the other with summaries that fit, and a page that
is not known stays so until a screen or an arrival is reported.
-/

namespace Mira.World
open Mira Bytes Eviction

structure RingSound (options : WorldStateOptions) (changes : List WorldChange) : Prop where
  bounded : changes.length ≤ options.maxRecentChanges
  consecutive : changes.IsChain fun first second =>
    second.changeSequence = first.changeSequence + 1
  summaries : ∀ change ∈ changes, change.summary.length ≤ options.maxChangeSummaryBytes

def KeepsRing (options : WorldStateOptions) (before after : WorldState) : Prop :=
  RingSound options before.recentChanges → RingSound options after.recentChanges

section
variable {options : WorldStateOptions} {state next : WorldState} {digest : Sha256Digest}
variable {changedAt : Timestamp}

theorem appendChange_ring {kind : WorldChangeKind} {summary : Bytes}
    (noted : appendChange state kind summary digest changedAt options = .ok next) :
    KeepsRing options state next := by
  intro sound
  obtain ⟨short, same⟩ := appendChange_ok noted
  rw [same, appendChangeUnchecked]
  have longer (change : WorldChange)
      (after : change.changeSequence =
        (state.recentChanges.getLast?.map WorldChange.changeSequence).getD 0 + 1) :
      (state.recentChanges ++ [change]).IsChain fun first second =>
        second.changeSequence = first.changeSequence + 1 := by
    refine sound.consecutive.append (.singleton _) ?_
    intro last held first same
    cases same
    rw [after, held]
    rfl
  have fit (change : WorldChange) (own : change.summary = summary) :
      ∀ noted ∈ state.recentChanges ++ [change],
        noted.summary.length ≤ options.maxChangeSummaryBytes := by
    rw [List.forall_mem_append, List.forall_mem_singleton, own]
    exact ⟨sound.summaries, short⟩
  dsimp only
  split
  · refine ⟨?_, (longer _ rfl).drop 1,
      fun change mem => fit _ rfl change (List.mem_of_mem_drop mem)⟩
    have bounded := sound.bounded
    simp only [List.length_drop, List.length_append, List.length_singleton]
    omega
  · next room => exact ⟨not_lt.mp room, longer _ rfl, fit _ rfl⟩

theorem makeRoom_ring {rounds : Nat}
    (made : makeRoom digest changedAt options rounds state = .ok next) :
    KeepsRing options state next := by
  induction rounds generalizing state with
  | zero =>
      cases made
      exact id
  | succ rounds ih =>
      rw [makeRoom] at made
      split at made
      · obtain ⟨left, one, rest⟩ := Checked.ok_of_bind made
        refine fun sound => ih rest ?_
        rw [evictOne] at one
        split at one
        · cases one
          exact sound
        · obtain ⟨_, noted, last⟩ := Checked.ok_of_bind one
          cases last
          have kept := appendChange_ring noted sound
          exact kept
      · cases made
        exact id

theorem observeElements_ring {input : WorldObservationInput} {loop after : ObservationLoop}
    {elements : List ElementRef}
    (observed : elements.foldlM (observeElement input options) loop = .ok after) :
    KeepsRing options loop.state after.state := by
  induction elements generalizing loop with
  | nil =>
      cases observed
      exact id
  | cons element rest ih =>
      obtain ⟨_, one, others⟩ := Checked.ok_of_bind observed
      refine fun sound => ih others ?_
      rw [observeElement] at one
      dsimp only at one
      split at one
      · cases one
        exact sound
      · obtain ⟨_, made, last⟩ := Checked.ok_of_bind one
        cases last
        have kept := makeRoom_ring made sound
        exact kept

theorem applyWorldObservation_ring {input : WorldObservationInput}
    (applied : applyWorldObservation state input options = .ok next) :
    KeepsRing options state next := by
  intro sound
  rw [applyWorldObservation] at applied
  obtain ⟨_, _, applied⟩ := Checked.ok_of_bind applied
  obtain ⟨_, _, applied⟩ := Checked.ok_of_bind applied
  obtain ⟨seen, foreground, applied⟩ := Checked.ok_of_bind applied
  obtain ⟨loop, run, applied⟩ := Checked.ok_of_bind applied
  have first : RingSound options seen.recentChanges := by
    rw [observeForeground] at foreground
    split at foreground
    · cases foreground
      exact sound
    · exact appendChange_ring foreground sound
  have second := observeElements_ring run first
  split at applied
  · exact appendChange_ring applied second
  · cases applied
    exact second

theorem expireEntities_ring {input : WorldExpiryInput} {table left : List WorldEntity}
    (done : expireEntities input options table state = .ok (left, next)) :
    KeepsRing options state next := by
  induction table generalizing state left with
  | nil =>
      cases done
      exact id
  | cons entity rest ih =>
      rw [expireEntities] at done
      split at done
      · obtain ⟨_, noted, done⟩ := Checked.ok_of_bind done
        obtain ⟨_, others, last⟩ := Checked.ok_of_bind done
        cases last
        exact fun sound => ih others (appendChange_ring noted sound)
      · obtain ⟨_, others, last⟩ := Checked.ok_of_bind done
        cases last
        exact ih others

theorem applyInput_ring {input : WorldStateInput}
    (applied : applyInput options state input = .ok next) : KeepsRing options state next := by
  cases input with
  | observation input => exact applyWorldObservation_ring applied
  | screenState input =>
      rw [applyInput, applyScreenState] at applied
      obtain ⟨_, _, applied⟩ := Checked.ok_of_bind applied
      obtain ⟨_, _, applied⟩ := Checked.ok_of_bind applied
      obtain ⟨_, _, applied⟩ := Checked.ok_of_bind applied
      obtain ⟨_, _, applied⟩ := Checked.ok_of_bind applied
      exact fun sound => appendChange_ring applied sound
  | navigation input =>
      rw [applyInput, applyNavigation] at applied
      obtain ⟨_, _, applied⟩ := Checked.ok_of_bind applied
      obtain ⟨_, _, applied⟩ := Checked.ok_of_bind applied
      obtain ⟨marked, conflict, applied⟩ := Checked.ok_of_bind applied
      refine fun sound => appendChange_ring applied ?_
      rw [markConflict] at conflict
      split at conflict
      · have kept := appendChange_ring conflict sound
        exact kept
      · cases conflict
        exact sound
  | toolSettled input =>
      rw [applyInput, applyToolSettled] at applied
      obtain ⟨_, _, applied⟩ := Checked.ok_of_bind applied
      obtain ⟨_, _, applied⟩ := Checked.ok_of_bind applied
      obtain ⟨_, _, applied⟩ := Checked.ok_of_bind applied
      obtain ⟨_, _, applied⟩ := Checked.ok_of_bind applied
      exact fun sound => appendChange_ring applied sound
  | verification input =>
      rw [applyInput, applyVerification] at applied
      obtain ⟨_, _, applied⟩ := Checked.ok_of_bind applied
      obtain ⟨_, _, applied⟩ := Checked.ok_of_bind applied
      obtain ⟨_, _, applied⟩ := Checked.ok_of_bind applied
      obtain ⟨_, _, applied⟩ := Checked.ok_of_bind applied
      exact fun sound => appendChange_ring applied sound
  | expiry input =>
      rw [applyInput, applyExpiry] at applied
      obtain ⟨_, _, applied⟩ := Checked.ok_of_bind applied
      obtain ⟨_, expired, applied⟩ := Checked.ok_of_bind applied
      intro sound
      have after := expireEntities_ring expired sound
      dsimp only at applied
      split at applied
      · exact appendChange_ring applied after
      · cases applied
        exact after

/-- The calls that make a page known. -/
def WorldCall.recognizes : WorldCall → Bool
  | .input (.screenState _) => true
  | .input (.navigation given) => given.success
  | _ => false

theorem step_unknown {call : WorldCall} (sound : Sound options state)
    (unknown : state.currentPage.status = .unknown) (other : call.recognizes = false) :
    (step options state call).currentPage.status = .unknown := by
  rw [step]
  cases applied : call.apply options state with
  | error _ => exact unknown
  | ok next =>
      have origin := (apply_accounted sound applied).1.page
      generalize next.currentPage = page at origin
      cases origin with
      | kept => exact unknown
      | doubted known => exact absurd unknown known
      | staled due =>
          cases unknown.symm.trans (WorldPageAssumption.expires_iff.mp due).1
      | recognized refreshed valid =>
          cases call with
          | prune => cases refreshed
          | input given =>
              cases given with
              | screenState input => cases other
              | navigation input => cases other.symm.trans refreshed
              | verification input =>
                  -- the verification of an unknown page is refused
                  rw [WorldCall.apply, applyInput, applyVerification] at applied
                  obtain ⟨_, _, applied⟩ := Checked.ok_of_bind applied
                  obtain ⟨_, _, applied⟩ := Checked.ok_of_bind applied
                  obtain ⟨_, _, applied⟩ := Checked.ok_of_bind applied
                  obtain ⟨_, target, _⟩ := Checked.ok_of_bind applied
                  exact absurd unknown (of_decide_eq_true (require_ok.mp target))
              | observation | toolSettled | expiry => cases refreshed

theorem run_unknown {calls : List WorldCall} (sound : Sound options state)
    (unknown : state.currentPage.status = .unknown)
    (others : ∀ call ∈ calls, call.recognizes = false) :
    (run options calls state).currentPage.status = .unknown := by
  induction calls generalizing state with
  | nil => exact unknown
  | cons call rest ih =>
      rw [List.forall_mem_cons] at others
      exact ih (step_accounted sound call).2 (step_unknown sound unknown others.1) others.2

theorem step_ring (sound : Sound options state) (call : WorldCall) :
    KeepsRing options state (step options state call) := by
  rw [step]
  cases applied : call.apply options state with
  | error _ => exact id
  | ok next =>
      cases call with
      | input given => exact applyInput_ring applied
      | prune =>
          rw [WorldCall.apply, pruneEntities_bounded sound.bounded] at applied
          cases applied
          exact id

theorem run_ring (sound : Sound options state) (ring : RingSound options state.recentChanges)
    (calls : List WorldCall) :
    RingSound options (run options calls state).recentChanges := by
  induction calls generalizing state with
  | nil => exact ring
  | cons call rest ih => exact ih (step_accounted sound call).2 (step_ring sound call ring)

end

/-- What holds after every run of the operators, and of pruning between them. -/
theorem world_state_bounded (options : WorldStateOptions) (calls : List WorldCall) :
    (run options calls {}).validate = .ok () ∧
      (run options calls {}).entities.length ≤ options.maxEntities ∧
      (run options calls {}).recentChanges.length ≤ options.maxRecentChanges ∧
      ((run options calls {}).entities.Pairwise fun left right =>
        sameElement left.element right.element = false) ∧
      ((run options calls {}).recentChanges.IsChain fun first second =>
        second.changeSequence = first.changeSequence + 1) ∧
      (∀ change ∈ (run options calls {}).recentChanges,
        change.summary.length ≤ options.maxChangeSummaryBytes) ∧
      ∀ later : List WorldCall, (run options calls {}).currentPage.status = .unknown →
        (∀ call ∈ later, call.recognizes = false) →
          (run options (calls ++ later) {}).currentPage.status = .unknown := by
  have sound := run_sound (start_sound options) calls
  have ring := run_ring (start_sound options)
    ⟨Nat.zero_le _, .nil, fun _ absent => absurd absent List.not_mem_nil⟩ calls
  refine ⟨sound.valid, sound.bounded, ring.bounded, ?_, ring.consecutive, ring.summaries, ?_⟩
  · have apart := List.pairwise_map.mp sound.distinct
    refine apart.imp fun differ => ?_
    rw [Bool.eq_false_iff]
    exact fun same => differ (sameElement_iff.mp same)
  · intro later unknown others
    have joined : run options (calls ++ later) {} = run options later (run options calls {}) :=
      List.foldl_append
    rw [joined]
    exact run_unknown sound unknown others

/-- A session without a screen, through a settled tool and a pruning. -/
theorem page_stays_unknown : (run {} ([.input (.toolSettled ⟨ascii "tap", ascii "completed", .zero,
    {}⟩)] ++ [.prune]) {}).currentPage.status = .unknown := by
  obtain ⟨_, _, _, _, _, _, stays⟩ := world_state_bounded {}
    [.input (.toolSettled ⟨ascii "tap", ascii "completed", .zero, {}⟩)]
  exact stays [.prune] rfl (by decide)

end Mira.World
