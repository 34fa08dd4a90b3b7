import HouseStyle.Proofs.Learning.Handover

/-!
# A rename and a later edit of its source

A queue hands out the most urgent entries first, and entries of one trigger in the order in which
they came. A rename of a file and a later edit of the same path are two entries, and each has a
trigger of its own: the trigger of the edit decides whether the file is moved away before the new
one is read.
-/

namespace HouseStyle

/-! ## What comes up first -/

/-- Wherever `second` comes up in the list, `first` has come up before. -/
def Leads {α : Type} (first second : α) (list : List α) : Prop :=
  ∀ front back, list = front ++ second :: back → first ∈ front

namespace Leads

variable {α β : Type} {first second : α} {left right list : List α}

lemma of_notMem (h : second ∉ list) : Leads first second list := by
  rintro front back rfl
  simp at h

lemma append (hleft : Leads first second left)
    (hright : first ∈ left ∨ Leads first second right) : Leads first second (left ++ right) := by
  intro front back hsplit
  rcases List.append_eq_append_iff.mp hsplit with ⟨more, rfl, hmore⟩ | ⟨more, hleft', hmore⟩
  · rcases hright with hfirst | hright
    · exact List.mem_append_left _ hfirst
    · exact List.mem_append_right _ (hright more back hmore)
  · cases more with
    | nil =>
      rcases hright with hfirst | hright
      · simpa [hleft'] using hfirst
      · have hnone := hright [] back (by simpa using hmore.symm)
        simp at hnone
    | cons entry more =>
      obtain ⟨rfl, -⟩ := List.cons.inj hmore
      exact hleft front more hleft'

/-- In a sorted list, an entry that is not behind another one comes up before it. -/
lemma of_pairwise {le : α → α → Prop} (sorted : list.Pairwise le) (hfirst : first ∈ list)
    (hle : ¬ le second first) (hne : first ≠ second) : Leads first second list := by
  rintro front back rfl
  rcases List.mem_append.mp hfirst with hfront | hback
  · exact hfront
  · obtain ⟨-, hsorted, -⟩ := List.pairwise_append.mp sorted
    rcases List.mem_cons.mp hback with hsame | hlater
    · exact absurd hsame hne
    · exact absurd (List.rel_of_pairwise_cons hsorted hlater) hle

lemma take (leads : Leads first second list) (n : Nat) : Leads first second (list.take n) := by
  intro front back hsplit
  refine leads front (back ++ list.drop n) ?_
  calc list = list.take n ++ list.drop n := (List.take_append_drop n list).symm
    _ = front ++ second :: (back ++ list.drop n) := by rw [hsplit, List.append_assoc]; rfl

lemma map (leads : Leads first second list) {f : α → β}
    (inj : ∀ entry ∈ list, f entry = f second → entry = second) :
    Leads (f first) (f second) (list.map f) := by
  intro front back hsplit
  obtain ⟨before, rest, rfl, rfl, hrest⟩ := List.map_eq_append_iff.mp hsplit
  obtain ⟨entry, later, rfl, hentry, -⟩ := List.map_eq_cons_iff.mp hrest
  obtain rfl := inj entry (by simp) hentry
  exact List.mem_map_of_mem (leads before later rfl)

end Leads

namespace ChangeQueue

/-! ## Pushing and draining -/

/-- What happens to a queue. -/
inductive Step where
  | push (change : FileChange) (trigger : Trigger)
  | drain (limit : Nat)
  deriving DecidableEq

namespace Step

def perform (queue : ChangeQueue) : Step → ChangeQueue
  | push change trigger => queue.push change trigger
  | drain limit => (queue.drain? limit).elim queue (·.2)

/-- The changes that a step takes out. -/
def handed (queue : ChangeQueue) : Step → List FileChange
  | push .. => []
  | drain limit => (queue.drain? limit).elim [] (·.1.changes)

end Step

/-- Take steps one after another. -/
def after (queue : ChangeQueue) (steps : List Step) : ChangeQueue := steps.foldl Step.perform queue

/-- All changes that the batches of some steps hand out, in their order. -/
def handed : ChangeQueue → List Step → List FileChange
  | _, [] => []
  | queue, step :: steps => step.handed queue ++ handed (step.perform queue) steps

/-- An entry leaves the queue through a drain: as long as it is pending, no push takes it out or
puts another one in its place. -/
def Kept (entry : PendingChange) : ChangeQueue → List Step → Prop
  | _, [] => True
  | queue, step :: steps => entry ∈ queue.pending →
    (∀ change trigger, step = .push change trigger → entry ∈ (step.perform queue).pending) ∧
      Kept entry (step.perform queue) steps

/-- One entry is drained before the other when both are pending. -/
def Precedes (first second : PendingChange) : Prop :=
  second.trigger.priority < first.trigger.priority ∨
    (first.trigger = second.trigger ∧ earlier first second = true)

instance (first second : PendingChange) : Decidable (Precedes first second) :=
  inferInstanceAs (Decidable (_ ∨ _))

variable {queue rest : ChangeQueue} {entry first second existing : PendingChange}
  {change : FileChange} {trigger : Trigger} {batch : ChangeBatch} {limit : Nat} {path : String}

/-! ### Order numbers -/

/-- A queue has gone on: every place in it was taken before, or is new. -/
structure Advances (queue later : ChangeQueue) : Prop where
  next : queue.nextOrder ≤ later.nextOrder
  places : ∀ entry ∈ later.pending, (∃ old ∈ queue.pending, old.order = entry.order) ∨
    (queue.nextOrder ≤ entry.order ∧ entry.order < later.nextOrder)

namespace Advances

variable {later last : ChangeQueue}

lemma refl (queue : ChangeQueue) : Advances queue queue where
  next := Nat.le_refl _
  places := fun entry hentry => .inl ⟨entry, hentry, rfl⟩

lemma trans (one : Advances queue later) (two : Advances later last) : Advances queue last where
  next := Nat.le_trans one.next two.next
  places := by
    rintro entry hentry
    have hnext := two.next
    rcases two.places entry hentry with ⟨old, hold, hsame⟩ | ⟨hlow, hhigh⟩
    · rcases one.places old hold with hplace | ⟨hlow, hhigh⟩
      · exact .inl (hsame ▸ hplace)
      · exact .inr (by omega)
    · have := one.next
      exact .inr (by omega)

lemma put (advances : Advances queue later)
    (hplace : (∃ old ∈ queue.pending, old.order = entry.order) ∨
      (queue.nextOrder ≤ entry.order ∧ entry.order < later.nextOrder)) :
    Advances queue (later.put entry) where
  next := advances.next
  places := by
    rintro other hother
    rcases List.mem_cons.mp hother with rfl | hother
    · exact hplace
    · exact advances.places other (List.mem_filter.mp hother).1

lemma putLast (advances : Advances queue later) (change : FileChange) (trigger : Trigger) :
    Advances queue (later.putLast change trigger) where
  next := Nat.le_succ_of_le advances.next
  places := by
    have hnext : later.nextOrder < (later.putLast change trigger).nextOrder := Nat.lt_succ_self _
    have hold := advances.next
    rintro other hother
    rcases List.mem_cons.mp hother with rfl | hother
    · exact .inr ⟨hold, hnext⟩
    · rcases advances.places other (List.mem_filter.mp hother).1 with hplace | ⟨hlow, hhigh⟩
      · exact .inl hplace
      · exact .inr (by omega)

/-- Entries may drop out. -/
lemma sublist (advances : Advances queue later) (hnext : last.nextOrder = later.nextOrder)
    (hpending : last.pending.Sublist later.pending) : Advances queue last where
  next := hnext ▸ advances.next
  places := fun other hother => hnext ▸ advances.places other (hpending.subset hother)

lemma pushSplitRename (hsource : existing ∈ queue.pending) (change : FileChange)
    (trigger : Trigger) : Advances queue (queue.pushSplitRename existing change trigger) := by
  have counted : Advances queue queue.countSuperseded := (refl queue).sublist rfl (.refl _)
  have split : Advances queue (queue.countSuperseded.put ⟨.deleted existing.change.path,
      existing.trigger.max trigger, existing.order⟩) := counted.put (.inl ⟨_, hsource, rfl⟩)
  simp only [ChangeQueue.pushSplitRename]
  split
  · next target htarget =>
    have hplace := split.places target (mem_of_find? htarget).1
    refine put ?_ hplace
    exact split.sublist rfl (.refl _)
  · exact split.putLast _ _

lemma pushOver (hexisting : existing ∈ queue.pending) (change : FileChange) (trigger : Trigger) :
    Advances queue (queue.pushOver existing change trigger) := by
  have erased : Advances queue (queue.erase change.path).countSuperseded :=
    (refl queue).sublist rfl List.filter_sublist
  simp only [ChangeQueue.pushOver]
  split
  · refine put ?_ (.inl ⟨_, hexisting, rfl⟩)
    split
    · simp only [putIfAbsent]
      split
      · exact erased
      · exact erased.put (.inl ⟨_, hexisting, rfl⟩)
    · exact erased
  · exact erased.put (.inl ⟨_, hexisting, rfl⟩)

end Advances

theorem push_advances (queue : ChangeQueue) (change : FileChange) (trigger : Trigger) :
    Advances queue (queue.push change trigger) := by
  simp only [push]
  split
  · next source hsource =>
    obtain ⟨-, hfound, -⟩ := editedSource?_eq_some.mp hsource
    obtain ⟨from?, -, hfound⟩ := Option.bind_eq_some_iff.mp hfound
    exact .pushSplitRename (mem_of_find? hfound).1 _ _
  · split
    · next hfound => exact .pushOver (mem_of_find? hfound).1 _ _
    · exact (Advances.refl queue).putLast _ _

/-- One entry for each path, and the next number is free. -/
structure Numbered (queue : ChangeQueue) : Prop where
  nodup : queue.paths.Nodup
  orders : ∀ entry ∈ queue.pending, entry.order < queue.nextOrder

lemma numbered_empty : Numbered empty where
  nodup := .nil
  orders := by simp [empty]

lemma Numbered.push (numbered : queue.Numbered) (change : FileChange) (trigger : Trigger) :
    (queue.push change trigger).Numbered where
  nodup := (queue.push_grown change trigger).1.nodup numbered.nodup
  orders := by
    rintro entry hentry
    have advances := queue.push_advances change trigger
    rcases advances.places entry hentry with ⟨old, hold, hsame⟩ | ⟨-, hhigh⟩
    · have := numbered.orders old hold
      have := advances.next
      omega
    · exact hhigh

lemma Numbered.sublist (numbered : queue.Numbered) (hnext : rest.nextOrder = queue.nextOrder)
    (hpending : rest.pending.Sublist queue.pending) : rest.Numbered where
  nodup := numbered.nodup.sublist (hpending.map _)
  orders := fun entry hentry => hnext ▸ numbered.orders entry (hpending.subset hentry)

/-! ### Drains -/

lemma drain?_eq_some : queue.drain? limit = some (batch, rest) ↔ ∃ trigger,
    queue.topTrigger? = some trigger ∧
    let taken := ((queue.pending.filter (·.trigger == trigger)).mergeSort earlier).take
      (max limit 1)
    batch = ⟨trigger, taken.map (·.change),
      ((taken.map (·.change)).filterMap (·.revision)).getLast?⟩ ∧
    rest = { queue with pending := queue.pending.filter fun p =>
      !(taken.map (·.change.path)).contains p.change.path } := by
  simp [drain?, eq_comm]

/-- Nothing that is pending is more urgent than the top. -/
lemma priority_le_top {top : Trigger} (htop : queue.topTrigger? = some top)
    (hentry : entry ∈ queue.pending) : entry.trigger.priority ≤ top.priority := by
  have hmax : ∀ a b : Trigger, a.priority ≤ (a.max b).priority ∧
      b.priority ≤ (a.max b).priority := by
    rintro (_ | _ | _) (_ | _ | _) <;> decide
  have fold : ∀ (triggers : List Trigger) (seen : Option Trigger) (found : Trigger),
      triggers.foldl (fun top t => some ((top.getD t).max t)) seen = some found →
        (∀ t ∈ seen, t.priority ≤ found.priority) ∧
          ∀ t ∈ triggers, t.priority ≤ found.priority := by
    intro triggers
    induction triggers with
    | nil =>
      rintro seen found rfl
      simp
    | cons t triggers ih =>
      intro seen found hfound
      obtain ⟨hseen, hrest⟩ := ih _ found hfound
      have hlow := hseen _ rfl
      constructor
      · rintro old rfl
        have := (hmax old t).1
        simp only [Option.getD_some] at hlow
        omega
      · refine List.forall_mem_cons.mpr ⟨?_, hrest⟩
        have := (hmax (seen.getD t) t).2
        omega
  exact (fold _ none top htop).2 _ (List.mem_map_of_mem hentry)

lemma path_injective (nodup : queue.paths.Nodup) (hfirst : first ∈ queue.pending)
    (hsecond : second ∈ queue.pending) (h : first.change.path = second.change.path) :
    first = second :=
  List.inj_on_of_nodup_map nodup hfirst hsecond h

/-- An entry stays, or its change is handed out. -/
lemma drain?_stays_or_handed (hdrain : queue.drain? limit = some (batch, rest))
    (nodup : queue.paths.Nodup) (hentry : entry ∈ queue.pending) :
    entry ∈ rest.pending ↔ entry.change ∉ batch.changes := by
  obtain ⟨top, htop, rfl, rfl⟩ := drain?_eq_some.mp hdrain
  simp only [List.mem_filter, hentry, true_and, Bool.not_eq_true', ← Bool.not_eq_true,
    List.contains_iff_mem, List.mem_map]
  apply not_congr
  constructor
  · rintro ⟨other, hother, hpath⟩
    have hpending := (List.mem_filter.mp (List.mem_mergeSort.mp (List.mem_of_mem_take hother))).1
    exact ⟨other, hother, congrArg _ (path_injective nodup hpending hentry hpath)⟩
  · rintro ⟨other, hother, hchange⟩
    exact ⟨other, hother, congrArg _ hchange⟩

/-- Of two pending entries, a drain takes the one that precedes first. -/
lemma drain?_leads (hdrain : queue.drain? limit = some (batch, rest)) (nodup : queue.paths.Nodup)
    (hfirst : first ∈ queue.pending) (hsecond : second ∈ queue.pending) (hne : first ≠ second)
    (precedes : Precedes first second) : Leads first.change second.change batch.changes := by
  obtain ⟨top, htop, rfl, -⟩ := drain?_eq_some.mp hdrain
  have hready : ∀ other, other ∈ (queue.pending.filter (·.trigger == top)).mergeSort earlier ↔
      other ∈ queue.pending ∧ other.trigger = top := by simp
  have hpath : ∀ other ∈ ((queue.pending.filter (·.trigger == top)).mergeSort earlier).take
      (max limit 1), other.change = second.change → other = second := fun other hother h =>
    path_injective nodup ((hready other).mp (List.mem_of_mem_take hother)).1 hsecond
      (congrArg _ h)
  refine Leads.map ?_ hpath
  by_cases htrigger : second.trigger = top
  · -- both are of the trigger that is drained, and the batch is sorted
    have hle := priority_le_top htop hfirst
    rcases precedes with hurgent | ⟨hsame, hearlier⟩
    · rw [htrigger] at hurgent
      omega
    · have sorted := List.pairwise_mergeSort earlier_trans earlier_total
        (queue.pending.filter (·.trigger == top))
      refine (Leads.of_pairwise sorted ((hready first).mpr ⟨hfirst, ?_⟩) ?_ hne).take _
      · exact hsame.trans htrigger
      · intro hlater
        apply hne
        rw [earlier_iff] at hearlier hlater
        refine path_injective nodup hfirst hsecond (String.le_antisymm ?_ ?_)
        · rcases hearlier with h | h <;> rcases hlater with h' | h' <;>
            first | omega | exact h.2
        · rcases hearlier with h | h <;> rcases hlater with h' | h' <;>
            first | omega | exact h'.2
  · refine Leads.of_notMem fun htaken => htrigger ?_
    exact ((hready second).mp (List.mem_of_mem_take htaken)).2

/-! ### Runs -/

lemma Numbered.perform (numbered : queue.Numbered) (step : Step) :
    (step.perform queue).Numbered := by
  cases step with
  | push change trigger => exact numbered.push change trigger
  | drain limit =>
    cases hdrain : queue.drain? limit with
    | none => simpa [Step.perform, hdrain] using numbered
    | some taken =>
      obtain ⟨batch, rest⟩ := taken
      obtain ⟨top, -, -, rfl⟩ := drain?_eq_some.mp hdrain
      simp only [Step.perform, hdrain, Option.elim_some]
      exact numbered.sublist rfl List.filter_sublist

lemma Numbered.after (numbered : queue.Numbered) (steps : List Step) :
    (queue.after steps).Numbered := by
  induction steps generalizing queue with
  | nil => exact numbered
  | cons step steps ih => exact ih (numbered.perform step)

/-- A step leaves an entry pending or hands it out. -/
lemma Kept.perform {step : Step} {steps : List Step} (kept : Kept entry queue (step :: steps))
    (nodup : queue.paths.Nodup) (hentry : entry ∈ queue.pending) :
    entry ∈ (step.perform queue).pending ∨ entry.change ∈ step.handed queue := by
  cases step with
  | push change trigger => exact .inl ((kept hentry).1 change trigger rfl)
  | drain limit =>
    cases hdrain : queue.drain? limit with
    | none => exact .inl (by simpa [Step.perform, hdrain] using hentry)
    | some taken =>
      have hstays := drain?_stays_or_handed hdrain nodup hentry
      simp only [Step.perform, Step.handed, hdrain, Option.elim_some, hstays]
      exact (Decidable.em _).symm

/-- An entry that is kept is pending until it is handed out. -/
lemma Kept.after {front back : List Step} (kept : Kept entry queue (front ++ back))
    (numbered : queue.Numbered) (hentry : entry ∈ queue.pending) :
    entry.change ∈ queue.handed front ∨
      (entry ∈ (queue.after front).pending ∧ Kept entry (queue.after front) back) := by
  induction front generalizing queue with
  | nil => exact .inr ⟨hentry, kept⟩
  | cons step front ih =>
    rcases kept.perform numbered.nodup hentry with hstays | hgone
    · rcases ih (kept hentry).2 (numbered.perform step) hstays with hlater | hlater
      · exact .inl (List.mem_append_right _ hlater)
      · exact .inr hlater
    · exact .inl (List.mem_append_left _ hgone)

/-- Whatever is pushed and drained, the entry that precedes is handed out first. -/
theorem handed_leads {steps : List Step} (numbered : queue.Numbered)
    (hfirst : first ∈ queue.pending) (hsecond : second ∈ queue.pending) (hne : first ≠ second)
    (precedes : Precedes first second) (keptFirst : Kept first queue steps)
    (keptSecond : Kept second queue steps) :
    Leads first.change second.change (queue.handed steps) := by
  induction steps generalizing queue with
  | nil => exact .of_notMem (List.not_mem_nil)
  | cons step steps ih =>
    have now : Leads first.change second.change (step.handed queue) := by
      cases step with
      | push change trigger => exact .of_notMem (List.not_mem_nil)
      | drain limit =>
        cases hdrain : queue.drain? limit with
        | none => simpa [Step.handed, hdrain] using Leads.of_notMem (List.not_mem_nil)
        | some taken =>
          simpa [Step.handed, hdrain] using
            drain?_leads hdrain numbered.nodup hfirst hsecond hne precedes
    refine now.append ?_
    rcases keptFirst.perform numbered.nodup hfirst with hstays | hgone
    · rcases keptSecond.perform numbered.nodup hsecond with hstays' | hgone'
      · exact .inr (ih (numbered.perform step) hstays hstays' (keptFirst hfirst).2
          (keptSecond hsecond).2)
      · obtain ⟨front, back, hsplit⟩ := List.append_of_mem hgone'
        exact .inl (hsplit ▸ List.mem_append_left _ (now front back hsplit))
    · exact .inl hgone

/-! ## A path that is used again -/

lemma priority_injective {a b : Trigger} (h : a.priority = b.priority) : a = b := by
  revert h
  cases a <;> cases b <;> decide

lemma precedes_of_not (h : ¬ Precedes first second) : Precedes second first := by
  simp only [Precedes, not_or, not_and] at h ⊢
  obtain ⟨hurgent, hlater⟩ := h
  by_cases htrigger : first.trigger = second.trigger
  · have htotal := earlier_total first second
    rw [Bool.or_eq_true] at htotal
    exact .inr ⟨htrigger.symm, htotal.resolve_left (hlater htrigger)⟩
  · have hne : first.trigger.priority ≠ second.trigger.priority :=
      fun h => htrigger (priority_injective h)
    exact .inl (by omega)

lemma normalized_kind (change : FileChange) : (normalized change).kind = change.kind := by
  simp only [normalized]

lemma mem_put (queue : ChangeQueue) (entry : PendingChange) : entry ∈ (queue.put entry).pending :=
  List.mem_cons_self

lemma push_unsplit (h : queue.editedSource? (normalized change) = none) (trigger : Trigger) :
    queue.push change trigger =
      match queue.find? (normalized change).path with
      | some existing => queue.pushOver existing (normalized change) trigger
      | none => queue.putLast (normalized change) trigger := by
  simp only [push]
  split
  · next source hsource =>
    rw [h] at hsource
    cases hsource
  · rfl

/-- A rename that splits no edit stays a rename. -/
lemma push_rename (hkind : change.kind = .renamed)
    (hfree : queue.editedSource? (normalized change) = none) (trigger : Trigger) :
    ∃ moved ∈ (queue.push change trigger).pending, moved.change = normalized change := by
  have hrenamed : (normalized change).kind = .renamed :=
    (normalized_kind change).trans hkind
  rw [push_unsplit hfree]
  generalize normalized change = change at hrenamed
  split
  · next existing _ =>
    refine ⟨⟨change, existing.trigger.max trigger, existing.order⟩, ?_, rfl⟩
    simp only [pushOver, hrenamed, ChangeKind.needsExtraction, Bool.false_eq_true, and_false,
      if_false]
    exact mem_put _ _
  · exact ⟨⟨change, trigger, queue.nextOrder⟩, mem_put _ _, rfl⟩

/-- An edit has the file read, whatever was pending for it. -/
lemma push_edit (hedit : change.kind.needsExtraction = true) (trigger : Trigger) :
    ∃ read ∈ (queue.push change trigger).pending, read.change.path = (normalized change).path ∧
      read.change.kind.needsExtraction = true ∧
      (queue.find? (normalized change).path = none →
        read.trigger = trigger ∧ read.order = queue.nextOrder) := by
  have hkind : (normalized change).kind.needsExtraction = true := by rw [normalized_kind, hedit]
  have hunsplit : queue.editedSource? (normalized change) = none := by
    refine if_neg fun h => ?_
    rw [h] at hkind
    cases hkind
  rw [push_unsplit hunsplit]
  generalize normalized change = change at hkind
  split
  · next existing hfound =>
    simp only [pushOver, hfound]
    split
    · exact ⟨_, mem_put _ _, rfl, rfl, nofun⟩
    · exact ⟨_, mem_put _ _, rfl, hkind, nofun⟩
  · exact ⟨⟨change, trigger, queue.nextOrder⟩, mem_put _ _, rfl, hkind, fun _ => ⟨rfl, rfl⟩⟩

/-- A rename is pushed while nothing is pending for its source, and later a new file comes up
under the path that it has left. -/
structure Reuse where
  earlier : List Step
  rename : FileChange
  renameTrigger : Trigger
  between : List Step
  edit : FileChange
  editTrigger : Trigger
  later : List Step
  source : String
  isRename : rename.kind = .renamed
  fromSource : rename.previousPath.map Path.normalize = some source
  free : (empty.after earlier).find? source = none
  isEdit : edit.kind.needsExtraction = true
  ofSource : Path.normalize edit.path = source

namespace Reuse

variable {moved read : PendingChange}

/-- The queue with the rename. -/
def atRename (reuse : Reuse) : ChangeQueue :=
  (empty.after reuse.earlier).push reuse.rename reuse.renameTrigger

def beforeEdit (reuse : Reuse) : ChangeQueue := reuse.atRename.after reuse.between

/-- The queue with the edit. -/
def atEdit (reuse : Reuse) : ChangeQueue :=
  reuse.beforeEdit.push reuse.edit reuse.editTrigger

/-- The entry of the rename leaves the queue through a drain. -/
def KeptRename (reuse : Reuse) (moved : PendingChange) : Prop :=
  Kept moved reuse.atRename (reuse.between ++ .push reuse.edit reuse.editTrigger :: reuse.later)

/-- The file is moved away before the new one is read. -/
def RenameFirst (reuse : Reuse) (moved read : PendingChange) : Prop :=
  moved.change ∈ reuse.atRename.handed reuse.between ∨
    Leads moved.change read.change (reuse.atEdit.handed reuse.later)

/-- The new file is read while the old one has not been moved away. -/
def EditFirst (reuse : Reuse) (moved read : PendingChange) : Prop :=
  Leads read.change moved.change (reuse.atEdit.handed reuse.later)

lemma numbered_beforeEdit (reuse : Reuse) : reuse.beforeEdit.Numbered :=
  ((numbered_empty.after reuse.earlier).perform
    (.push reuse.rename reuse.renameTrigger)).after reuse.between

lemma numbered_atEdit (reuse : Reuse) : reuse.atEdit.Numbered :=
  reuse.numbered_beforeEdit.perform (.push reuse.edit reuse.editTrigger)

/-- The rename is pending as it is: no edit of its source splits it. -/
lemma exists_moved (reuse : Reuse) :
    ∃ moved ∈ reuse.atRename.pending, moved.change = normalized reuse.rename := by
  refine push_rename reuse.isRename ?_ reuse.renameTrigger
  have hfrom : (normalized reuse.rename).previousPath = some reuse.source := reuse.fromSource
  simp only [editedSource?, hfrom, Option.bind_some, reuse.free, Option.filter_none, ite_self]

lemma exists_read (reuse : Reuse) :
    ∃ read ∈ reuse.atEdit.pending, read.change.path = reuse.source ∧
      read.change.kind.needsExtraction = true ∧
      (reuse.beforeEdit.find? reuse.source = none →
        read.trigger = reuse.editTrigger ∧ read.order = reuse.beforeEdit.nextOrder) := by
  have hpath : (normalized reuse.edit).path = reuse.source := reuse.ofSource
  rw [← hpath]
  exact push_edit reuse.isEdit reuse.editTrigger

/-- What decides whether the file is moved away before the new one is read. -/
structure Decided (reuse : Reuse) (moved read : PendingChange) : Prop where
  /-- It has been moved before the edit came, or its rename precedes. -/
  renameFirst : moved.change ∈ reuse.atRename.handed reuse.between ∨ Precedes moved read →
    reuse.RenameFirst moved read
  editFirst : moved.change ∉ reuse.atRename.handed reuse.between → ¬ Precedes moved read →
    reuse.EditFirst moved read
  /-- Where nothing else is pending for the path, the triggers alone decide. -/
  byTrigger : moved.change ∉ reuse.atRename.handed reuse.between →
    reuse.beforeEdit.find? reuse.source = none →
    (Precedes moved read ↔ reuse.editTrigger.priority ≤ moved.trigger.priority)

/-- Two entries that leave the queue through drains leave it in the order of their places. -/
lemma decided_of_kept (reuse : Reuse) (hmoved : moved ∈ reuse.atRename.pending)
    (hrename : moved.change.kind = .renamed) (hread : read ∈ reuse.atEdit.pending)
    (hedit : read.change.kind.needsExtraction = true)
    (hlast : reuse.beforeEdit.find? reuse.source = none →
      read.trigger = reuse.editTrigger ∧ read.order = reuse.beforeEdit.nextOrder)
    (keptMoved : reuse.KeptRename moved) (keptRead : Kept read reuse.atEdit reuse.later) :
    reuse.Decided moved read := by
  have hne : moved ≠ read := by
    rintro rfl
    rw [hrename] at hedit
    cases hedit
  have numbered := (numbered_empty.after reuse.earlier).perform
    (.push reuse.rename reuse.renameTrigger)
  rcases keptMoved.after numbered hmoved with hgone | ⟨hpending, kept⟩
  · exact ⟨fun _ => .inl hgone, fun h => absurd hgone h, fun h => absurd hgone h⟩
  · obtain ⟨hstays, keptLater⟩ := kept hpending
    have hatEdit := hstays reuse.edit reuse.editTrigger rfl
    constructor
    · rintro (hgone | precedes)
      · exact .inl hgone
      · exact .inr (handed_leads reuse.numbered_atEdit hatEdit hread hne precedes keptLater
          keptRead)
    · intro _ hnot
      exact handed_leads reuse.numbered_atEdit hread hatEdit hne.symm (precedes_of_not hnot)
        keptRead keptLater
    · intro _ hnone
      obtain ⟨htrigger, horder⟩ := hlast hnone
      have hplace : moved.order < read.order :=
        horder ▸ reuse.numbered_beforeEdit.orders moved hpending
      rw [Precedes, earlier_iff, htrigger]
      constructor
      · rintro (hurgent | ⟨hsame, -⟩)
        · omega
        · rw [hsame]
      · intro hle
        rcases Nat.lt_or_eq_of_le hle with hurgent | hsame
        · exact .inl hurgent
        · exact .inr ⟨(priority_injective hsame).symm, .inl hplace⟩

/-- A rename is pending as it was pushed, and the edit of its source has the file read. When both
leave the queue through drains, the rename goes first if it has been drained before the edit came,
or if its trigger is as urgent as that of the edit and nothing else is pending for the path; with
a less urgent trigger the edit goes first. -/
theorem rename_decided (reuse : Reuse) :
    ∃ moved ∈ reuse.atRename.pending, ∃ read ∈ reuse.atEdit.pending,
      moved.change = normalized reuse.rename ∧ read.change.path = reuse.source ∧
      read.change.kind.needsExtraction = true ∧
      (reuse.KeptRename moved → Kept read reuse.atEdit reuse.later →
        reuse.Decided moved read) := by
  obtain ⟨moved, hmoved, hrename⟩ := reuse.exists_moved
  obtain ⟨read, hread, hpath, hedit, hlast⟩ := reuse.exists_read
  have hkind : moved.change.kind = .renamed := by
    rw [hrename, normalized_kind, reuse.isRename]
  exact ⟨moved, hmoved, read, hread, hrename, hpath, hedit,
    reuse.decided_of_kept hmoved hkind hread hedit hlast⟩

/-! A file is moved, and a new one comes up under its path before anything was drained. -/

def sample (editTrigger : Trigger) : Reuse where
  earlier := []
  rename := .renamed "a.ts" "b.ts"
  renameTrigger := .watch
  between := []
  edit := .added "a.ts"
  editTrigger := editTrigger
  later := [.drain 10, .drain 10]
  source := "a.ts"
  isRename := rfl
  fromSource := by decide
  free := rfl
  isEdit := rfl
  ofSource := by decide

def sampleMoved : PendingChange := ⟨.renamed "a.ts" "b.ts", .watch, 0⟩

def sampleRead (editTrigger : Trigger) : PendingChange := ⟨.added "a.ts", editTrigger, 1⟩

lemma sample_atRename (editTrigger : Trigger) : (sample editTrigger).atRename.pending =
    [sampleMoved] := by
  cases editTrigger <;> decide +kernel

lemma sample_atEdit (editTrigger : Trigger) : (sample editTrigger).atEdit.pending =
    [sampleRead editTrigger, sampleMoved] := by
  cases editTrigger <;> decide +kernel

lemma sample_kept (editTrigger : Trigger) : (sample editTrigger).KeptRename sampleMoved ∧
    Kept (sampleRead editTrigger) (sample editTrigger).atEdit (sample editTrigger).later := by
  constructor
  · refine fun _ => ⟨?_, fun _ => ⟨nofun, fun _ => ⟨nofun, trivial⟩⟩⟩
    rintro _ _ -
    show sampleMoved ∈ (sample editTrigger).atEdit.pending
    simp [sample_atEdit]
  · exact fun _ => ⟨nofun, fun _ => ⟨nofun, trivial⟩⟩

/-- With one trigger for both, the file is moved away first. -/
theorem sample_renameFirst : (sample .watch).KeptRename sampleMoved ∧
    Kept (sampleRead .watch) (sample .watch).atEdit (sample .watch).later ∧
    (sample .watch).RenameFirst sampleMoved (sampleRead .watch) := by
  obtain ⟨moved, hmoved, read, hread, -, -, hedit, decided⟩ := (sample .watch).rename_decided
  obtain rfl : moved = sampleMoved := by simpa [sample_atRename] using hmoved
  obtain rfl : read = sampleRead .watch := by
    rw [sample_atEdit, List.mem_pair] at hread
    refine hread.resolve_right ?_
    rintro rfl
    cases hedit
  obtain ⟨keptMoved, keptRead⟩ := sample_kept .watch
  exact ⟨keptMoved, keptRead, (decided keptMoved keptRead).renameFirst (.inr (by decide))⟩

lemma sample_handed : (sample .manual).atEdit.handed (sample .manual).later =
    [.added "a.ts", .renamed "a.ts" "b.ts"] := by
  decide +kernel

/-- An edit that was asked for by hand is read before the file is moved away. -/
theorem sample_editFirst : ¬ ∀ (reuse : Reuse) (moved read : PendingChange),
    moved ∈ reuse.atRename.pending → moved.change = normalized reuse.rename →
    read ∈ reuse.atEdit.pending → read.change.path = reuse.source →
    read.change.kind.needsExtraction = true → reuse.KeptRename moved →
    Kept read reuse.atEdit reuse.later → reuse.RenameFirst moved read := by
  intro renameFirst
  obtain ⟨keptMoved, keptRead⟩ := sample_kept .manual
  have first := renameFirst (sample .manual) sampleMoved (sampleRead .manual)
    (by simp [sample_atRename]) (by decide) (by simp [sample_atEdit]) rfl rfl keptMoved keptRead
  rcases first with hgone | leads
  · exact List.not_mem_nil hgone
  · exact List.not_mem_nil (leads [] [.renamed "a.ts" "b.ts"] sample_handed)

end Reuse

end ChangeQueue

end HouseStyle
