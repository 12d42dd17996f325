import Mira.Context.WorkingContext
import Mira.Library.Interleaving

/-!
What a merge accounts for. Each entry of the delta is put into a section or cut, and what a
supersede did not replace of the parent stays, where the sections of the parent fit the bound and
no supersede is resolved at a slot that an earlier one has replaced; elsewhere the counters or the
entries do not add up.
-/

namespace Mira.Context
open Mira Bytes Workflow

/-- A supersede was resolved at the slot, through the parent's own content there. -/
def Replaced (parent : WorkingContextSnapshot) (replacements : List Replacement)
    (own : WorkingSection) (index : Nat) : Bool :=
  replacements.any fun replacement =>
    replacement.own = own ∧ replacement.index = index ∧
      (parent.items own)[index]?.map WorkingContextItem.content = some replacement.content

def kept (parent : WorkingContextSnapshot) (replacements : List Replacement)
    (own : WorkingSection) : List WorkingContextItem :=
  Slots.pick (parent.items own) fun index => !Replaced parent replacements own index

def itemsOf (entries : List WorkingContextDeltaEntry) (own : WorkingSection) :
    List WorkingContextItem :=
  (entries.filter fun entry => sectionByName entry.sectionName = some own).map deltaItem

/-- The supersedes of a merge that were resolved. -/
def replacementsOf (forkBase parent : WorkingContextSnapshot) (delta : WorkingContextDelta) :
    List Replacement :=
  match mergeScan forkBase parent delta with
  | .ok scan => scan.replacements
  | .error _ => []

/-- The merged sections hold what is kept of the parent, in its order, and the entries that were
not cut, and the counters say how many these are. -/
structure NothingLost (forkBase parent : WorkingContextSnapshot) (delta : WorkingContextDelta)
    (report : WorkingContextMergeReport) : Prop where
  ordered : ∀ own, (kept parent (replacementsOf forkBase parent delta) own).Sublist
    (report.merged.items own)
  accounted : ∃ placed cut : WorkingSection → List WorkingContextItem,
    (∀ own, (itemsOf delta.entries own).Perm (placed own ++ cut own)) ∧
      (∀ own, (report.merged.items own).Perm
        (kept parent (replacementsOf forkBase parent delta) own ++ placed own)) ∧
      (total fun own => (cut own).length) = report.truncatedEntries
  supersedes : report.supersedesResolved + report.supersedesDroppedStale =
    delta.entries.countP (·.kind = .supersede)
  additions : report.additionsAppended + report.truncatedEntries =
    delta.entries.countP (·.kind = .addition) + report.supersedesDroppedStale

def resolves (canonical : List Bytes) (scan : MergeScan) (entry : WorkingContextDeltaEntry) :
    Option Replacement :=
  match entry.kind, baseContent canonical entry, sectionOf entry with
  | .supersede, .ok content, .ok own =>
      (scan.slotOf own content).map fun index => ⟨own, index, content⟩
  | _, _, _ => none

/-- Each supersede is resolved at a slot that none has replaced before. -/
def FirstHits (parent : WorkingContextSnapshot) (canonical : List Bytes) :
    MergeScan → List WorkingContextDeltaEntry → Prop
  | _, [] => True
  | scan, entry :: rest =>
      ((resolves canonical scan entry).any fun hit =>
        Replaced parent scan.replacements hit.own hit.index) = false ∧
        match scanEntry canonical scan entry with
        | .ok next => FirstHits parent canonical next rest
        | .error _ => True

/-- The sections of the parent are within the bound. -/
def Fits (parent : WorkingContextSnapshot) (options : WorkingContextMergeOptions) : Prop :=
  ∀ own ∈ workingSections, (parent.items own).length ≤ options.maxItemsPerSection

instance decidableFirstHits (parent : WorkingContextSnapshot) (canonical : List Bytes) :
    ∀ scan entries, Decidable (FirstHits parent canonical scan entries)
  | _, [] => .isTrue trivial
  | scan, entry :: rest =>
      have : Decidable (match scanEntry canonical scan entry with
          | .ok next => FirstHits parent canonical next rest
          | .error _ => True) :=
        match scanEntry canonical scan entry with
        | .ok next => decidableFirstHits parent canonical next rest
        | .error _ => .isTrue trivial
      inferInstanceAs (Decidable (_ ∧ _))

instance decidableFits (parent : WorkingContextSnapshot) (options : WorkingContextMergeOptions) :
    Decidable (Fits parent options) :=
  inferInstanceAs (Decidable (∀ own ∈ workingSections, _))

theorem total_eq (count : WorkingSection → Nat) :
    total count = count .constraints + (count .decisions + (count .openIssues +
      (count .activeTasks + (count .verifiedFacts + (count .failedAttempts +
        (count .importantRefs + count .nextActions)))))) := by
  simp [total, workingSections]

theorem total_add (first second : WorkingSection → Nat) :
    (total fun own => first own + second own) = total first + total second := by
  simp only [total_eq]
  omega

variable {first second : WorkingSection → Nat}

theorem eq_of_total_eq (below : ∀ own, first own ≤ second own) (same : total first = total second)
    (own : WorkingSection) : first own = second own := by
  simp only [total_eq] at same
  have := below .constraints
  have := below .decisions
  have := below .openIssues
  have := below .activeTasks
  have := below .verifiedFacts
  have := below .failedAttempts
  have := below .importantRefs
  have := below .nextActions
  cases own with
  | _ => omega

theorem total_bump (own : WorkingSection) (here : second own = first own + 1)
    (there : ∀ other, other ≠ own → second other = first other) :
    total second = total first + 1 := by
  have apart (other : WorkingSection) : second other = if other = own then first other + 1
      else first other := by
    by_cases same : other = own
    · rw [if_pos same, same, here]
    · rw [if_neg same, there other same]
  simp only [total_eq, apart]
  cases own with
  | _ =>
      simp
      omega

theorem total_filter {α : Type} (key : α → WorkingSection) (entries : List α) :
    (total fun own => (entries.filter fun entry => key entry = own).length) = entries.length := by
  induction entries with
  | nil => rfl
  | cons first rest ih =>
      rw [List.length_cons, ← ih]
      refine total_bump (key first) ?_ fun other differs => ?_
      · rw [List.filter_cons_of_pos (by simp), List.length_cons]
      · rw [List.filter_cons_of_neg (by simpa using Ne.symm differs)]

section
variable {parent : WorkingContextSnapshot} {canonical : List Bytes} {scan next : MergeScan}
variable {entry : WorkingContextDeltaEntry} {own : WorkingSection} {index : Nat}
variable {content : Bytes} {done : List WorkingContextDeltaEntry}

inductive Scans (canonical : List Bytes) (scan : MergeScan) (entry : WorkingContextDeltaEntry) :
    MergeScan → Prop
  | added (own : WorkingSection) (named : sectionByName entry.sectionName = some own)
      (kind : entry.kind = .addition) (unresolved : resolves canonical scan entry = none) :
      Scans canonical scan entry (scan.append own (deltaItem entry))
  | replaced (own : WorkingSection) (index : Nat) (content : Bytes)
      (named : sectionByName entry.sectionName = some own) (kind : entry.kind = .supersede)
      (hit : resolves canonical scan entry = some ⟨own, index, content⟩)
      (first : scan.slotOf own content = some index) :
      Scans canonical scan entry (scan.replace own index content (deltaItem entry))
  | stale (own : WorkingSection) (named : sectionByName entry.sectionName = some own)
      (kind : entry.kind = .supersede) (unresolved : resolves canonical scan entry = none) :
      Scans canonical scan entry (scan.dropStale own (deltaItem entry))

theorem sectionOf_ok (found : sectionOf entry = .ok own) :
    sectionByName entry.sectionName = some own := by
  rw [sectionOf] at found
  cases named : sectionByName entry.sectionName with
  | none =>
      rw [named] at found
      cases found
  | some other =>
      rw [named] at found
      cases found
      rfl

theorem scans_of_ok (scanned : scanEntry canonical scan entry = .ok next) :
    Scans canonical scan entry next := by
  rw [scanEntry] at scanned
  cases kind : entry.kind with
  | addition =>
      rw [kind] at scanned
      cases named : sectionOf entry with
      | error reason =>
          simp only [named] at scanned
          cases scanned
      | ok own =>
          simp only [named] at scanned
          cases scanned
          exact .added own (sectionOf_ok named) kind (by simp [resolves, kind])
  | supersede =>
      rw [kind] at scanned
      cases target : baseContent canonical entry with
      | error reason =>
          simp only [target] at scanned
          cases scanned
      | ok content =>
          cases named : sectionOf entry with
          | error reason =>
              simp only [target, named] at scanned
              cases scanned
          | ok own =>
              cases first : scan.slotOf own content with
              | none =>
                  simp only [target, named, first, bind, Except.bind] at scanned
                  cases scanned
                  exact .stale own (sectionOf_ok named) kind
                    (by simp [resolves, kind, target, named, first])
              | some index =>
                  simp only [target, named, first, bind, Except.bind] at scanned
                  cases scanned
                  exact .replaced own index content (sectionOf_ok named) kind
                    (by simp [resolves, kind, target, named, first]) first

theorem slotOf_some (first : scan.slotOf own content = some index) :
    ∃ item, (scan.working own)[index]? = some item ∧ item.content = content := by
  obtain ⟨within, same, -⟩ := List.findIdx?_eq_some_iff_getElem.mp first
  exact ⟨_, List.getElem?_eq_getElem within, by simpa using same⟩

theorem itemsOf_append (own other : WorkingSection)
    (named : sectionByName entry.sectionName = some own) :
    itemsOf (done ++ [entry]) other =
      itemsOf done other ++ if own = other then [deltaItem entry] else [] := by
  rw [itemsOf, List.filter_append, List.map_append, itemsOf]
  by_cases same : own = other
  · simp [named, same]
  · simp [named, same]

theorem appended_append (scan : MergeScan) (own other : WorkingSection) (item : WorkingContextItem) :
    (scan.append own item).appended other =
      scan.appended other ++ if own = other then [item] else [] := by
  rw [MergeScan.appended, MergeScan.append, List.filter_append, List.map_append, MergeScan.appended]
  by_cases same : own = other
  · simp [same]
  · simp [same]

theorem replaced_cons (replacements : List Replacement) (hit : Replacement) (other : WorkingSection)
    (slot : Nat) :
    Replaced parent (hit :: replacements) other slot =
      (decide (hit.own = other ∧ hit.index = slot ∧
        (parent.items other)[slot]?.map WorkingContextItem.content = some hit.content) ||
        Replaced parent replacements other slot) := rfl

variable {replacements : List Replacement}

theorem replaced_beside {other : WorkingSection} {slot : Nat} (differs : own ≠ other ∨ index ≠ slot) :
    Replaced parent (⟨own, index, content⟩ :: replacements) other slot =
      Replaced parent replacements other slot := by
  rw [replaced_cons]
  cases differs with
  | inl apart => simp [apart]
  | inr apart => simp [apart]

theorem kept_replaced {item : WorkingContextItem} (found : (parent.items own)[index]? = some item)
    (named : item.content = content) (fresh : Replaced parent replacements own index = false) :
    (kept parent replacements own).Perm
      (item :: kept parent (⟨own, index, content⟩ :: replacements) own) := by
  have moved := Slots.pick_perm found (fun slot => !Replaced parent replacements own slot)
    (by rw [fresh]; rfl)
  have rest : (Slots.pick (parent.items own) fun slot =>
      !Replaced parent replacements own slot && slot != index) =
      kept parent (⟨own, index, content⟩ :: replacements) own := by
    refine Slots.pick_congr fun slot _ => ?_
    by_cases same : slot = index
    · simp [replaced_cons, same, found, named]
    · rw [replaced_beside (.inr (Ne.symm same))]
      simp [same]
  rwa [rest] at moved

theorem kept_beside {other : WorkingSection} (differs : own ≠ other) :
    kept parent (⟨own, index, content⟩ :: replacements) other = kept parent replacements other :=
  Slots.pick_congr fun slot _ => by rw [replaced_beside (.inl differs)]

theorem kept_again (before : Replaced parent replacements own index = true) (other : WorkingSection) :
    kept parent (⟨own, index, content⟩ :: replacements) other = kept parent replacements other := by
  refine Slots.pick_congr fun slot _ => ?_
  by_cases same : own = other ∧ index = slot
  · rw [replaced_cons, ← same.1, ← same.2, before, Bool.or_true]
  · rw [replaced_beside (by
      by_cases here : own = other
      · exact .inr fun slot => same ⟨here, slot⟩
      · exact .inl here)]

structure Scanned (parent : WorkingContextSnapshot) (scan : MergeScan)
    (done : List WorkingContextDeltaEntry) : Prop where
  sizes : ∀ own, (scan.working own).length = (parent.items own).length
  same : ∀ own index, Replaced parent scan.replacements own index = false →
    (scan.working own)[index]? = (parent.items own)[index]?
  listed : (total fun own => (itemsOf done own).length) = done.length
  supersedes : scan.supersedesResolved + scan.supersedesDroppedStale =
    done.countP (·.kind = .supersede)
  additions : scan.additions.length =
    done.countP (·.kind = .addition) + scan.supersedesDroppedStale
  replaced : scan.replacements.length = scan.supersedesResolved

theorem listed_append (own : WorkingSection) (named : sectionByName entry.sectionName = some own)
    (listed : (total fun own => (itemsOf done own).length) = done.length) :
    (total fun own => (itemsOf (done ++ [entry]) own).length) = (done ++ [entry]).length := by
  rw [List.length_append, List.length_singleton, ← listed]
  refine total_bump own ?_ fun other differs => ?_
  · rw [itemsOf_append own own named, if_pos rfl, List.length_append, List.length_singleton]
  · rw [itemsOf_append own other named, if_neg (Ne.symm differs), List.append_nil]

theorem Scanned.step (scanned : Scanned parent scan done)
    (scans : Scans canonical scan entry next) : Scanned parent next (done ++ [entry]) := by
  cases scans with
  | added own named kind unresolved =>
      refine ⟨scanned.sizes, scanned.same, listed_append own named scanned.listed, ?_, ?_,
        scanned.replaced⟩
      · rw [List.countP_append, ← scanned.supersedes]
        simp [kind, MergeScan.append]
      · rw [List.countP_append]
        simp only [MergeScan.append, List.length_append, scanned.additions]
        simp [kind]
        omega
  | replaced own index content named kind hit first =>
      obtain ⟨item, found, same⟩ := slotOf_some first
      refine ⟨?_, ?_, listed_append own named scanned.listed, ?_, ?_, ?_⟩
      · intro other
        by_cases here : other = own
        · rw [here]
          simp [MergeScan.replace, scanned.sizes own]
        · simp [MergeScan.replace, here, scanned.sizes other]
      · intro other slot untouched
        have before : Replaced parent scan.replacements other slot = false := by
          rw [MergeScan.replace, replaced_cons, Bool.or_eq_false_iff] at untouched
          exact untouched.2
        have kept := scanned.same other slot before
        by_cases here : own = other ∧ index = slot
        · obtain ⟨rfl, rfl⟩ := here
          rw [MergeScan.replace, replaced_cons, ← kept, found] at untouched
          simp [same] at untouched
        · rw [← kept]
          by_cases own_ : own = other
          · have apart : index ≠ slot := fun equal => here ⟨own_, equal⟩
            subst own_
            simp [MergeScan.replace, List.getElem?_set_ne apart]
          · simp [MergeScan.replace, Ne.symm own_]
      · rw [List.countP_append, ← scanned.supersedes]
        simp [kind, MergeScan.replace]
        omega
      · rw [List.countP_append]
        simp [kind, MergeScan.replace, scanned.additions]
      · rw [MergeScan.replace, List.length_cons, scanned.replaced]
  | stale own named kind unresolved =>
      refine ⟨scanned.sizes, scanned.same, listed_append own named scanned.listed, ?_, ?_,
        scanned.replaced⟩
      · rw [List.countP_append, ← scanned.supersedes]
        simp [kind, MergeScan.dropStale, MergeScan.append]
        omega
      · rw [List.countP_append]
        simp only [MergeScan.dropStale, MergeScan.append, List.length_append, scanned.additions]
        simp [kind]
        omega

end

end Mira.Context
