import Mira.Context.Merged
import Mira.Library.Checked

/-!
The merge as a whole: a run of the scan, what the bound cuts, and the two conditions under which
nothing is lost. A child that changed nothing leaves the state of its parent as it was.
-/

namespace Mira.Context
open Mira Bytes Workflow Checked

section
variable {forkBase parent child : WorkingContextSnapshot} {canonical : List Bytes}
variable {scan next final : MergeScan} {entry : WorkingContextDeltaEntry}
variable {done rest : List WorkingContextDeltaEntry} {delta : WorkingContextDelta}
variable {identity : WorkingContextIdentity} {watermark : Nat}
variable {options childOptions : WorkingContextMergeOptions} {report : WorkingContextMergeReport}

theorem foldlM_cons_ok {σ α : Type} {step : σ → α → Result σ} {first last : σ} {entry : α}
    {rest : List α} (run : (entry :: rest).foldlM step first = .ok last) :
    ∃ next, step first entry = .ok next ∧ rest.foldlM step next = .ok last := by
  rw [List.foldlM_cons] at run
  exact ok_of_bind run

/-- What the entries behind the scan have brought: items in the sections, and additions. -/
def Brought (parent : WorkingContextSnapshot) (scan : MergeScan)
    (done : List WorkingContextDeltaEntry) (put : WorkingSection → List WorkingContextItem) : Prop :=
  ∀ own, (itemsOf done own).Perm (put own ++ scan.appended own) ∧
    (scan.working own).Perm (kept parent scan.replacements own ++ put own)

variable {put : WorkingSection → List WorkingContextItem}

theorem Brought.append {own : WorkingSection} (brought : Brought parent scan done put)
    (named : sectionByName entry.sectionName = some own) :
    Brought parent (scan.append own (deltaItem entry)) (done ++ [entry]) put := by
  intro other
  refine ⟨?_, (brought other).2⟩
  rw [itemsOf_append own other named, appended_append, ← List.append_assoc]
  exact (brought other).1.append_right _

theorem Brought.step (brought : Brought parent scan done put) (scanned : Scanned parent scan done)
    (first : ((resolves canonical scan entry).any fun hit =>
      Replaced parent scan.replacements hit.own hit.index) = false)
    (scans : Scans canonical scan entry next) :
    ∃ put, Brought parent next (done ++ [entry]) put := by
  cases scans with
  | added own named kind unresolved => exact ⟨put, brought.append named⟩
  | stale own named kind unresolved => exact ⟨put, brought.append named⟩
  | replaced own index content named kind hit at_ =>
      obtain ⟨item, found, same⟩ := slotOf_some at_
      rw [hit, Option.any_some] at first
      have original : (parent.items own)[index]? = some item :=
        (scanned.same own index first).symm.trans found
      have taken := kept_replaced original same first
      refine ⟨Function.update put own (put own ++ [deltaItem entry]), fun other => ?_⟩
      rw [itemsOf_append own other named]
      by_cases here : other = own
      · subst here
        rw [if_pos rfl, Function.update_self]
        refine ⟨?_, ?_⟩
        · have moved := ((brought other).1.append_right [deltaItem entry])
          refine moved.trans ?_
          rw [List.append_assoc, List.append_assoc]
          exact List.Perm.append_left _ List.perm_append_comm
        · have listed : (scan.working other).Perm (item ::
              (kept parent (⟨other, index, content⟩ :: scan.replacements) other ++ put other)) :=
            (brought other).2.trans (taken.append_right _)
          have written := Slots.set_perm (deltaItem entry) found listed
          simp only [MergeScan.replace, Function.update_self]
          rw [← List.append_assoc]
          exact written.trans (List.perm_append_singleton _ _).symm
      · rw [if_neg (Ne.symm here), List.append_nil, Function.update_of_ne here]
        refine ⟨(brought other).1, ?_⟩
        simp only [MergeScan.replace, Function.update_of_ne here]
        rw [kept_beside (Ne.symm here)]
        exact (brought other).2

theorem Scanned.run (scanned : Scanned parent scan done)
    (run : rest.foldlM (scanEntry canonical) scan = .ok final) :
    Scanned parent final (done ++ rest) := by
  induction rest generalizing scan done with
  | nil =>
      cases run
      rwa [List.append_nil]
  | cons entry rest ih =>
      obtain ⟨next, stepped, later⟩ := foldlM_cons_ok run
      rw [List.append_cons]
      exact ih (scanned.step (scans_of_ok stepped)) later

theorem Brought.run (brought : Brought parent scan done put) (scanned : Scanned parent scan done)
    (hits : FirstHits parent canonical scan rest)
    (run : rest.foldlM (scanEntry canonical) scan = .ok final) :
    ∃ put, Brought parent final (done ++ rest) put := by
  induction rest generalizing scan done put with
  | nil =>
      cases run
      rw [List.append_nil]
      exact ⟨put, brought⟩
  | cons entry rest ih =>
      obtain ⟨next, stepped, later⟩ := foldlM_cons_ok run
      rw [FirstHits, stepped] at hits
      obtain ⟨put, brought⟩ := brought.step scanned hits.1 (scans_of_ok stepped)
      rw [List.append_cons]
      exact ih brought (scanned.step (scans_of_ok stepped)) hits.2 later

/-- What is kept, and the supersedes that were resolved. -/
def keptAndHit (parent : WorkingContextSnapshot) (scan : MergeScan) : Nat :=
  (total fun own => (kept parent scan.replacements own).length) + scan.replacements.length

theorem keptAndHit_step (scanned : Scanned parent scan done)
    (scans : Scans canonical scan entry next) :
    keptAndHit parent next = keptAndHit parent scan +
      if (resolves canonical scan entry).any (fun hit =>
        Replaced parent scan.replacements hit.own hit.index) then 1 else 0 := by
  cases scans with
  | added own named kind unresolved =>
      rw [unresolved]
      rfl
  | stale own named kind unresolved =>
      rw [unresolved]
      rfl
  | replaced own index content named kind hit at_ =>
      rw [hit, Option.any_some]
      dsimp only
      cases before : Replaced parent scan.replacements own index with
      | true =>
          simp only [keptAndHit, MergeScan.replace, kept_again before, List.length_cons, if_true]
          omega
      | false =>
          obtain ⟨item, found, same⟩ := slotOf_some at_
          have original : (parent.items own)[index]? = some item :=
            (scanned.same own index before).symm.trans found
          have taken := (kept_replaced original same before).length_eq
          have moved : (total fun other => (kept parent scan.replacements other).length) =
              (total fun other => (kept parent
                (⟨own, index, content⟩ :: scan.replacements) other).length) + 1 :=
            total_bump own taken fun other differs => by rw [kept_beside (Ne.symm differs)]
          simp only [keptAndHit, MergeScan.replace, List.length_cons, moved]
          simp
          omega

theorem keptAndHit_run (scanned : Scanned parent scan done)
    (run : rest.foldlM (scanEntry canonical) scan = .ok final) :
    keptAndHit parent scan ≤ keptAndHit parent final ∧
      (keptAndHit parent scan = keptAndHit parent final → FirstHits parent canonical scan rest) := by
  induction rest generalizing scan done with
  | nil =>
      cases run
      exact ⟨Nat.le_refl _, fun _ => trivial⟩
  | cons entry rest ih =>
      obtain ⟨next, stepped, later⟩ := foldlM_cons_ok run
      have scans := scans_of_ok stepped
      have moved := keptAndHit_step scanned scans
      obtain ⟨below, same⟩ := ih (scanned.step scans) later
      refine ⟨by omega, fun equal => ?_⟩
      rw [FirstHits, stepped]
      split at moved
      · omega
      · next first => exact ⟨by simpa using first, same (by omega)⟩

variable {parentSize : Nat} {working : List WorkingContextItem}

theorem truncated_sizes (options : WorkingContextMergeOptions) (size : working.length = parentSize)
    (appended : List WorkingContextItem) :
    (truncateSection options parentSize working appended).1.length +
        (truncateSection options parentSize working appended).2.2 =
      parentSize + appended.length ∧
    appended.length ≤ (truncateSection options parentSize working appended).2.1 +
      (truncateSection options parentSize working appended).2.2 ∧
    (appended.length = (truncateSection options parentSize working appended).2.1 +
      (truncateSection options parentSize working appended).2.2 ↔
        parentSize ≤ options.maxItemsPerSection) := by
  rw [truncateSection, size]
  split
  · simp only [List.length_append, size]
    omega
  · simp only [List.length_take, List.length_append, size]
    split
    · omega
    · omega

theorem truncated_items (options : WorkingContextMergeOptions) (size : working.length = parentSize)
    (appended : List WorkingContextItem) (fits : parentSize ≤ options.maxItemsPerSection) :
    (truncateSection options parentSize working appended).1 =
        working ++ appended.take (options.maxItemsPerSection - parentSize) ∧
      (truncateSection options parentSize working appended).2.2 =
        (appended.drop (options.maxItemsPerSection - parentSize)).length := by
  rw [truncateSection, size]
  split
  · next within =>
      rw [List.take_of_length_le (by omega), List.length_drop]
      refine ⟨rfl, ?_⟩
      dsimp only
      omega
  · rw [List.take_append, List.take_of_length_le (by omega), size, List.length_drop]
    refine ⟨rfl, ?_⟩
    dsimp only
    omega

theorem merge_scans
    (merged : mergeWorkingContextDelta forkBase parent delta identity watermark options =
      .ok report) :
    ∃ scan, mergeScan forkBase parent delta = .ok scan ∧
      report = mergeReport forkBase parent identity watermark options scan ∧
      identity.task = parent.taskId ∧ identity.taskEpoch = parent.taskEpoch ∧
      identity.environmentEpoch = parent.environmentEpoch := by
  rw [mergeWorkingContextDelta] at merged
  obtain ⟨-, -, merged⟩ := ok_of_bind merged
  obtain ⟨-, -, merged⟩ := ok_of_bind merged
  obtain ⟨-, -, merged⟩ := ok_of_bind merged
  obtain ⟨-, -, merged⟩ := ok_of_bind merged
  obtain ⟨-, -, merged⟩ := ok_of_bind merged
  obtain ⟨-, -, merged⟩ := ok_of_bind merged
  obtain ⟨_, same, merged⟩ := ok_of_bind merged
  obtain ⟨scan, scanned, merged⟩ := ok_of_bind merged
  obtain ⟨-, -, merged⟩ := ok_of_bind merged
  have agree := not_of_rejectIf same
  simp only [not_or, not_not] at agree
  cases merged
  exact ⟨scan, scanned, rfl, agree.1, agree.2.1, agree.2.2⟩

theorem scanned_start (parent : WorkingContextSnapshot) :
    Scanned parent { working := parent.items } [] :=
  ⟨fun _ => rfl, fun _ _ _ => rfl, rfl, rfl, rfl, rfl⟩

theorem kept_start (parent : WorkingContextSnapshot) (own : WorkingSection) :
    kept parent [] own = parent.items own :=
  Slots.pick_all fun _ => rfl

theorem brought_start (parent : WorkingContextSnapshot) :
    Brought parent { working := parent.items } [] fun _ => [] := by
  intro own
  refine ⟨List.Perm.nil, ?_⟩
  rw [kept_start, List.append_nil]

theorem kept_sublist (scanned : Scanned parent scan done) (own : WorkingSection) :
    (kept parent scan.replacements own).Sublist (scan.working own) := by
  refine Slots.pick_sublist (scanned.sizes own).symm fun index untouched => ?_
  exact (scanned.same own index (by simpa using untouched)).symm

theorem merged_items (forkBase parent : WorkingContextSnapshot) (identity : WorkingContextIdentity)
    (watermark : Nat) (options : WorkingContextMergeOptions) (scan : MergeScan)
    (own : WorkingSection) :
    (mergeReport forkBase parent identity watermark options scan).merged.items own =
      (scan.truncated parent options own).1 := by
  cases own <;> rfl

theorem total_appended (scan : MergeScan) :
    (total fun own => (scan.appended own).length) = scan.additions.length := by
  rw [← total_filter Prod.fst scan.additions]
  simp only [MergeScan.appended, List.length_map]

theorem Fits.all (fits : Fits parent options) (own : WorkingSection) :
    (parent.items own).length ≤ options.maxItemsPerSection :=
  fits own (mem_workingSections own)

theorem nothingLost_of_fits (scanned : mergeScan forkBase parent delta = .ok scan)
    (fits : Fits parent options)
    (hits : FirstHits parent (canonicalBaseEntries forkBase) { working := parent.items }
      delta.entries) :
    NothingLost forkBase parent delta
      (mergeReport forkBase parent identity watermark options scan) := by
  have run := (scanned_start parent).run scanned
  obtain ⟨put, brought⟩ := (brought_start parent).run (scanned_start parent) hits scanned
  rw [List.nil_append] at run brought
  have cut (own : WorkingSection) := truncated_items options (run.sizes own) (scan.appended own)
    (fits.all own)
  have replaced : replacementsOf forkBase parent delta = scan.replacements := by
    rw [replacementsOf, scanned]
  refine ⟨?_, ⟨fun own => put own ++
    (scan.appended own).take (options.maxItemsPerSection - (parent.items own).length),
    fun own => (scan.appended own).drop (options.maxItemsPerSection - (parent.items own).length),
    ?_, ?_, ?_⟩, run.supersedes, ?_⟩
  · intro own
    rw [merged_items, replaced, MergeScan.truncated, (cut own).1]
    exact (kept_sublist run own).trans (List.sublist_append_left _ _)
  · intro own
    rw [List.append_assoc, List.take_append_drop]
    exact (brought own).1
  · intro own
    rw [merged_items, replaced, MergeScan.truncated, (cut own).1, ← List.append_assoc]
    exact (brought own).2.append_right _
  · exact congrArg total (funext fun own => (cut own).2.symm)
  · have counted (own : WorkingSection) :=
      (truncated_sizes options (run.sizes own) (scan.appended own)).2.2.mpr (fits.all own)
    rw [mergeReport, ← run.additions, ← total_appended, ← total_add]
    exact congrArg total (funext fun own => (counted own).symm)

theorem fits_of_nothingLost (scanned : mergeScan forkBase parent delta = .ok scan)
    (nothing : NothingLost forkBase parent delta
      (mergeReport forkBase parent identity watermark options scan)) : Fits parent options := by
  have run := (scanned_start parent).run scanned
  rw [List.nil_append] at run
  have counted := nothing.additions
  rw [mergeReport, ← run.additions, ← total_appended, ← total_add] at counted
  intro own _
  have same := eq_of_total_eq
    (fun own => (truncated_sizes options (run.sizes own) (scan.appended own)).2.1)
    counted.symm own
  exact (truncated_sizes options (run.sizes own) _).2.2.mp same

theorem firstHits_of_nothingLost (scanned : mergeScan forkBase parent delta = .ok scan)
    (nothing : NothingLost forkBase parent delta
      (mergeReport forkBase parent identity watermark options scan)) :
    FirstHits parent (canonicalBaseEntries forkBase) { working := parent.items }
      delta.entries := by
  have run := (scanned_start parent).run scanned
  rw [List.nil_append] at run
  refine (keptAndHit_run (scanned_start parent) scanned).2 ?_
  have replaced : replacementsOf forkBase parent delta = scan.replacements := by
    rw [replacementsOf, scanned]
  obtain ⟨placed, cut, entries, sections, counted⟩ := nothing.accounted
  have listed : delta.entries.length =
      (total fun own => (placed own).length) + total fun own => (cut own).length := by
    rw [← run.listed, ← total_add]
    refine congrArg total (funext fun own => ?_)
    rw [(entries own).length_eq, List.length_append]
  have held : (total fun own => (scan.truncated parent options own).1.length) =
      (total fun own => (kept parent scan.replacements own).length) +
        total fun own => (placed own).length := by
    rw [← total_add]
    refine congrArg total (funext fun own => ?_)
    have same := (sections own).length_eq
    rwa [merged_items, replaced, List.length_append] at same
  have sizes : (total fun own => (scan.truncated parent options own).1.length) +
      (total fun own => (scan.truncated parent options own).2.2) =
        (total fun own => (parent.items own).length) + scan.additions.length := by
    rw [← total_appended, ← total_add, ← total_add]
    refine congrArg total (funext fun own => ?_)
    exact (truncated_sizes options (run.sizes own) _).1
  have kinds : delta.entries.length =
      delta.entries.countP (·.kind = .supersede) + delta.entries.countP (·.kind = .addition) := by
    rw [List.length_eq_countP_add_countP fun entry => decide (entry.kind = .supersede)]
    refine congrArg _ (List.countP_congr fun entry _ => ?_)
    cases entry.kind <;> simp
  have supersedes := run.supersedes
  have additions := run.additions
  have resolved := run.replaced
  have start : keptAndHit parent { working := parent.items } =
      total fun own => (parent.items own).length := by
    rw [keptAndHit]
    simp only [kept_start, List.length_nil, Nat.add_zero]
  rw [start, keptAndHit]
  simp only [mergeReport] at counted
  omega

theorem foldlM_keeps {σ α : Type} {step : σ → α → Result σ} (inv : σ → Prop) {entries : List α}
    (keeps : ∀ state entry next, entry ∈ entries → step state entry = .ok next → inv state →
      inv next)
    {first last : σ} (run : entries.foldlM step first = .ok last) (start : inv first) : inv last := by
  induction entries generalizing first with
  | nil =>
      cases run
      exact start
  | cons entry rest ih =>
      obtain ⟨next, stepped, later⟩ := foldlM_cons_ok run
      exact ih (fun state other next among => keeps state other next (.tail _ among)) later
        (keeps first entry next (.head _) stepped start)

theorem projectItem_inherited {own : WorkingSection} {item : WorkingContextItem}
    {projection after : Projection} (inherited : item ∈ forkBase.items own)
    (projected : projectItem forkBase childOptions own projection item = .ok after) :
    after.entries = projection.entries := by
  rw [projectItem] at projected
  obtain ⟨_, -, projected⟩ := ok_of_bind projected
  rw [if_pos (List.any_eq_true.mpr ⟨item, inherited, by simp⟩)] at projected
  cases projected
  rfl

theorem projected_nothing (same : ∀ own, child.items own = forkBase.items own)
    (projected : workingContextDeltaFromFork forkBase child childOptions = .ok delta) :
    delta.entries = [] := by
  rw [workingContextDeltaFromFork] at projected
  obtain ⟨_, -, projected⟩ := ok_of_bind projected
  obtain ⟨_, -, projected⟩ := ok_of_bind projected
  obtain ⟨_, -, projected⟩ := ok_of_bind projected
  obtain ⟨projection, run, projected⟩ := ok_of_bind projected
  obtain ⟨_, -, projected⟩ := ok_of_bind projected
  obtain ⟨_, -, projected⟩ := ok_of_bind projected
  cases projected
  refine foldlM_keeps (fun projection => projection.entries = [])
    (fun before own after _ section_ start => ?_) run rfl
  refine foldlM_keeps (fun projection => projection.entries = [])
    (fun before item after among stepped start => ?_) section_ start
  exact (projectItem_inherited (same own ▸ among) stepped).trans start

theorem stateDigest_unchanged
    (merged : mergeWorkingContextDelta forkBase parent delta identity watermark options =
      .ok report)
    (nothing : delta.entries = []) (fits : Fits parent options) (plain : parent.fork = none)
    (current : parent.schemaVersion = workingContextSchemaCurrent)
    (still : watermark = parent.throughEventSequence) :
    report.merged.stateDigest = parent.stateDigest := by
  obtain ⟨scan, scanned, rfl, task, taskEpoch, environmentEpoch⟩ := merge_scans merged
  rw [mergeScan, nothing] at scanned
  cases scanned
  have items (own : WorkingSection) : (mergeReport forkBase parent identity watermark options
      { working := parent.items }).merged.items own = parent.items own := by
    rw [merged_items, MergeScan.truncated, truncateSection,
      if_pos (by simpa [MergeScan.appended] using fits.all own)]
    exact List.append_nil _
  rw [WorkingContextSnapshot.stateDigest, WorkingContextSnapshot.stateDigest]
  simp only [items]
  rw [WorkingContextSnapshot.headMembers, WorkingContextSnapshot.headMembers, plain, current,
    ← task, ← taskEpoch, ← environmentEpoch, ← still]
  rfl

end

/-- A merge that goes through accounts for all of the parent and of the delta exactly where the
sections of the parent fit the bound and no supersede is resolved at a slot that an earlier one
has replaced; and the projection of a child that changed nothing leaves the state digest of a
parent of the current schema that is no fork itself as it was. -/
theorem merge_loses_nothing {forkBase parent : WorkingContextSnapshot}
    {delta : WorkingContextDelta} {identity : WorkingContextIdentity} {watermark : Nat}
    {options : WorkingContextMergeOptions} {report : WorkingContextMergeReport}
    (merged : mergeWorkingContextDelta forkBase parent delta identity watermark options =
      .ok report) :
    (NothingLost forkBase parent delta report ↔
      Fits parent options ∧
        FirstHits parent (canonicalBaseEntries forkBase) { working := parent.items }
          delta.entries) ∧
      (Fits parent options → parent.fork = none →
        parent.schemaVersion = workingContextSchemaCurrent →
        ∀ child childOptions, workingContextDeltaFromFork forkBase child childOptions = .ok delta →
          (∀ own, child.items own = forkBase.items own) →
            watermark = parent.throughEventSequence →
              report.merged.stateDigest = parent.stateDigest) := by
  obtain ⟨scan, scanned, same, -⟩ := merge_scans merged
  refine ⟨⟨fun nothing => ?_, fun held => ?_⟩, ?_⟩
  · rw [same] at nothing
    exact ⟨fits_of_nothingLost scanned nothing, firstHits_of_nothingLost scanned nothing⟩
  · rw [same]
    exact nothingLost_of_fits scanned held.1 held.2
  · intro fits plain current child childOptions projected unchanged still
    exact stateDigest_unchanged merged (projected_nothing unchanged projected) fits plain current
      still

theorem exists_of_isOk {α : Type} {result : Result α} (ok : result.isOk = true) :
    ∃ value, result = .ok value := by
  cases result with
  | error reason => cases ok
  | ok value => exact ⟨value, rfl⟩

def decided (content : String) (event : UInt8) : WorkingContextItem :=
  { content := ascii content, sourceEvents := [.filled event] }

def decisionsOf (session : UInt8) (decisions : List WorkingContextItem) : WorkingContextSnapshot :=
  { id := ⟨⟨List.replicate 16 session, rfl⟩⟩
    sessionId := .filled session
    taskId := .filled 9
    throughEventSequence := 1
    sourceCheckpoints := [⟨⟨List.replicate 16 8, rfl⟩⟩]
    decisions := decisions }

def sharedBase : WorkingContextSnapshot := decisionsOf 2 [decided "a" 1]

def supersedingDelta : WorkingContextDelta :=
  { forkBaseSnapshotId := sharedBase.id
    childSessionId := .filled 3
    entries := [{ kind := .supersede, sectionName := ascii "decisions", content := ascii "c",
                  sourceEvents := [.filled 3] }] }

def soleParent : WorkingContextSnapshot := decisionsOf 1 [decided "a" 1]

/-- What a child that changed nothing brings. -/
def inheritedDelta : WorkingContextDelta :=
  { forkBaseSnapshotId := sharedBase.id, childSessionId := .filled 3, inheritedSkipped := 1 }

theorem superseding_accounted :
    (∃ report, mergeWorkingContextDelta sharedBase soleParent supersedingDelta ⟨.filled 9, 0, 0⟩ 2
        {} = .ok report ∧ NothingLost sharedBase soleParent supersedingDelta report) ∧
      ∃ report, mergeWorkingContextDelta sharedBase soleParent inheritedDelta ⟨.filled 9, 0, 0⟩ 1
        {} = .ok report ∧ report.merged.stateDigest = soleParent.stateDigest := by
  have goes : (mergeWorkingContextDelta sharedBase soleParent supersedingDelta ⟨.filled 9, 0, 0⟩ 2
      {}).isOk = true := by
    simp only [mergeWorkingContextDelta, mergeReport, mergeCandidate,
      workingContextSnapshotIdFromSeed, contextAssetIdFromSeed,
      WorkingContextSnapshot.stateDigest, canonicalJsonDigest, Sha256.digestString_eq]
    decide +kernel
  have goes' : (mergeWorkingContextDelta sharedBase soleParent inheritedDelta ⟨.filled 9, 0, 0⟩ 1
      {}).isOk = true := by
    simp only [mergeWorkingContextDelta, mergeReport, mergeCandidate,
      workingContextSnapshotIdFromSeed, contextAssetIdFromSeed,
      WorkingContextSnapshot.stateDigest, canonicalJsonDigest, Sha256.digestString_eq]
    decide +kernel
  obtain ⟨report, merged⟩ := exists_of_isOk goes
  obtain ⟨report', merged'⟩ := exists_of_isOk goes'
  refine ⟨⟨report, merged, (merge_loses_nothing merged).1.mpr
    ⟨by decide +kernel, by decide +kernel⟩⟩, report', merged', ?_⟩
  exact (merge_loses_nothing merged').2 (by decide +kernel) rfl rfl
    (decisionsOf 3 [decided "a" 1]) {} rfl (fun _ => rfl) rfl

def longParent : WorkingContextSnapshot := decisionsOf 1 [decided "a" 1, decided "b" 2]

def emptyDelta : WorkingContextDelta :=
  { forkBaseSnapshotId := sharedBase.id, childSessionId := .filled 3 }

theorem long_parent_cut :
    ∃ report, mergeWorkingContextDelta sharedBase longParent emptyDelta ⟨.filled 9, 0, 0⟩ 1
        { maxItemsPerSection := 1 } = .ok report ∧
      report.merged.decisions = [decided "a" 1] ∧ report.truncatedEntries = 1 ∧
      ¬ NothingLost sharedBase longParent emptyDelta report := by
  have goes : (mergeWorkingContextDelta sharedBase longParent emptyDelta ⟨.filled 9, 0, 0⟩ 1
      { maxItemsPerSection := 1 }).isOk = true := by
    simp only [mergeWorkingContextDelta, mergeReport, mergeCandidate,
      workingContextSnapshotIdFromSeed, contextAssetIdFromSeed,
      WorkingContextSnapshot.stateDigest, canonicalJsonDigest, Sha256.digestString_eq]
    decide +kernel
  obtain ⟨report, merged⟩ := exists_of_isOk goes
  obtain ⟨scan, scanned, same, -⟩ := merge_scans merged
  cases scanned
  rw [same] at merged
  refine ⟨_, merged, by decide +kernel, by decide +kernel, fun nothing => ?_⟩
  have counted := nothing.additions
  exact absurd counted (by decide +kernel)

end Mira.Context
