import HouseStyle.Proofs.Learning.Pool
import Mathlib.Data.Finset.Card

/-!
# Tickets of a pool

The ticket of a scheduled project is in one place: with the caller that has scheduled it, in the
channel, or with a worker. What is outstanding is the number of tickets that were counted and are
not finished.
-/

namespace HouseStyle

namespace Pool

variable {ι ω π : Type} [DecidableEq ι] [DecidableEq ω] [DecidableEq π] {limit : Nat}
  {pool mid after : Pool ι ω π} {project : π} {caller : ι} {worker : ω} {move : PoolStep ι ω π}
  {moves : List (PoolStep ι ω π)}

/-! ## The place of a ticket -/

/-- Where the ticket of a project can be. -/
inductive Place (ι ω : Type) where
  | caller (caller : ι)
  | channel
  | worker (worker : ω)

/-- A ticket of the project is in the place. -/
def Held (pool : Pool ι ω π) : Place ι ω → π → Prop
  | .caller caller, project => (pool.caller caller).bind Submission.ticket? = some project
  | .channel, project => project ∈ pool.tickets
  | .worker worker, project => (pool.worker worker).bind Shift.ticket? = some project

/-- Every scheduled project has one ticket, in one place, and no other project has any. -/
structure Tokens (pool : Pool ι ω π) (place : π → Option (Place ι ω)) : Prop where
  held : ∀ spot project, pool.Held spot project ↔ place project = some spot
  scheduled : ∀ project, pool.isScheduled project = (place project).isSome
  nodup : pool.tickets.Nodup

omit [DecidableEq π] in
/-- Where the new state is like the old one, nobody gets or loses anything. -/
lemma bind_update {α β : Type} [DecidableEq α] {states : α → Option β} {ticket? : β → Option π}
    {a : α} {old new : Option β} (hold : states a = old)
    (hsame : new.bind ticket? = old.bind ticket?) (b : α) :
    (Function.update states a new b).bind ticket? = (states b).bind ticket? := by
  rw [Function.update_apply]
  split
  · next h => rw [h, hold, hsame]
  · rfl

namespace Tokens

variable {place : π → Option (Place ι ω)}

omit [DecidableEq ι] [DecidableEq ω] [DecidableEq π] in
lemma start (stores : π → PatternStore) : Tokens (start stores : Pool ι ω π) fun _ => none where
  held := by rintro (_ | _ | _) project <;> simp [Held, Pool.start]
  scheduled := by simp [Pool.start]
  nodup := .nil

omit [DecidableEq ι] [DecidableEq ω] [DecidableEq π] in
/-- No ticket moves. -/
lemma stay (tokens : Tokens pool place) (hcaller : ∀ caller,
      (after.caller caller).bind Submission.ticket? = (pool.caller caller).bind Submission.ticket?)
    (hworker : ∀ worker,
      (after.worker worker).bind Shift.ticket? = (pool.worker worker).bind Shift.ticket?)
    (htickets : after.tickets = pool.tickets) (hscheduled : after.isScheduled = pool.isScheduled) :
    Tokens after place where
  held := by
    rintro spot project
    rw [← tokens.held]
    cases spot with
    | caller caller => simp only [Held, hcaller]
    | channel => simp only [Held, htickets]
    | worker worker => simp only [Held, hworker]
  scheduled := hscheduled ▸ tokens.scheduled
  nodup := htickets ▸ tokens.nodup

omit [DecidableEq ι] [DecidableEq ω] in
/-- The ticket of one project moves. -/
lemma moveTo (tokens : Tokens pool place) {spot : Option (Place ι ω)}
    (hheld : ∀ there other, after.Held there other ↔
      if other = project then spot = some there else pool.Held there other)
    (hscheduled : after.isScheduled = Function.update pool.isScheduled project spot.isSome)
    (nodup : after.tickets.Nodup) : Tokens after (Function.update place project spot) where
  held := by
    rintro there other
    rw [hheld, Function.update_apply]
    split
    · rfl
    · exact tokens.held there other
  scheduled := by
    rintro other
    rw [hscheduled, Function.update_apply, Function.update_apply]
    split
    · rfl
    · exact tokens.scheduled other
  nodup := nodup

omit [DecidableEq ι] [DecidableEq ω] [DecidableEq π] in
lemma not_held (tokens : Tokens pool place) (h : pool.isScheduled project = false)
    (spot : Place ι ω) : ¬ pool.Held spot project := by
  have hscheduled := tokens.scheduled project
  rw [tokens.held]
  rintro hplace
  simp [h, hplace] at hscheduled

omit [DecidableEq ι] [DecidableEq ω] [DecidableEq π] in
/-- A ticket is in one place. -/
lemma unique (tokens : Tokens pool place) {spot : Place ι ω} (h : pool.Held spot project)
    (other : Place ι ω) (h' : pool.Held other project) : spot = other := by
  rw [tokens.held] at h h'
  simpa [h] using h'

omit [DecidableEq ω] in
/-- A caller that finds a project unscheduled gets a ticket for it. -/
lemma claim (tokens : Tokens pool place) (hcaller : pool.caller caller = some (.queued project))
    (hfree : pool.isScheduled project = false) :
    Tokens ((pool.setScheduled project true).putCaller caller (some (.claimed project)))
      (Function.update place project (some (.caller caller))) := by
  have hnone := tokens.not_held hfree
  refine tokens.moveTo ?_ rfl tokens.nodup
  rintro (other | _ | other) q
  · have hnone := hnone (.caller other)
    simp only [Held, putCaller, setScheduled, Function.update_apply] at hnone ⊢
    grind [Submission.ticket?]
  · have hnone := hnone .channel
    simp only [Held, putCaller, setScheduled] at hnone ⊢
    grind
  · have hnone := hnone (.worker other)
    simp only [Held, putCaller, setScheduled] at hnone ⊢
    grind

omit [DecidableEq ω] in
lemma send (tokens : Tokens pool place) (hcaller : pool.caller caller = some (.counted project)) :
    Tokens { pool.putCaller caller none with tickets := pool.tickets ++ [project] }
      (Function.update place project (some .channel)) := by
  have hheld : pool.Held (.caller caller) project := by simp [Held, hcaller, Submission.ticket?]
  have hchannel : project ∉ pool.tickets := fun h => nomatch tokens.unique hheld .channel h
  refine tokens.moveTo ?_ ?_ ?_
  · rintro (other | _ | other) q
    · have honly := tokens.unique hheld (.caller other)
      simp only [Held, putCaller, Function.update_apply] at honly ⊢
      grind [Submission.ticket?]
    · simp only [Held]
      grind
    · have honly := tokens.unique hheld (.worker other)
      simp only [Held, putCaller] at honly ⊢
      grind
  · have := tokens.scheduled project
    rw [(tokens.held _ _).mp hheld] at this
    exact (Function.update_eq_self_iff.mpr this.symm).symm
  · exact List.nodup_append.mpr ⟨tokens.nodup, by simp, by grind⟩

omit [DecidableEq ι] in
lemma receive (tokens : Tokens pool place) {tickets : List π} (hworker : pool.worker worker = none)
    (htickets : pool.tickets = project :: tickets) :
    Tokens { pool.putWorker worker (some (.draining project)) with tickets }
      (Function.update place project (some (.worker worker))) := by
  have hheld : pool.Held .channel project := by simp [Held, htickets]
  have hnodup := tokens.nodup
  rw [htickets] at hnodup
  refine tokens.moveTo ?_ ?_ hnodup.of_cons
  · rintro (other | _ | other) q
    · have honly := tokens.unique hheld (.caller other)
      simp only [Held, putWorker] at honly ⊢
      grind
    · simp only [Held, htickets]
      grind
    · have honly := tokens.unique hheld (.worker other)
      simp only [Held, putWorker, Function.update_apply] at honly ⊢
      grind [Shift.ticket?]
  · have := tokens.scheduled project
    rw [(tokens.held _ _).mp hheld] at this
    exact (Function.update_eq_self_iff.mpr this.symm).symm

omit [DecidableEq ι] in
lemma release (tokens : Tokens pool place)
    (hworker : pool.worker worker = some (.emptied project)) :
    Tokens ((pool.setScheduled project false).putWorker worker (some (.released project)))
      (Function.update place project none) := by
  have hheld : pool.Held (.worker worker) project := by simp [Held, hworker, Shift.ticket?]
  refine tokens.moveTo ?_ rfl tokens.nodup
  rintro (other | _ | other) q
  · have honly := tokens.unique hheld (.caller other)
    simp only [Held, putWorker, setScheduled] at honly ⊢
    grind
  · have honly := tokens.unique hheld .channel
    simp only [Held, putWorker, setScheduled] at honly ⊢
    grind
  · have honly := tokens.unique hheld (.worker other)
    simp only [Held, putWorker, setScheduled, Function.update_apply] at honly ⊢
    grind [Shift.ticket?]

omit [DecidableEq ι] in
/-- So does a worker that finds its project pending and unscheduled. -/
lemma reclaim (tokens : Tokens pool place)
    (hworker : pool.worker worker = some (.refilled project))
    (hfree : pool.isScheduled project = false) :
    Tokens ((pool.setScheduled project true).putWorker worker (some (.draining project)))
      (Function.update place project (some (.worker worker))) := by
  have hnone := tokens.not_held hfree
  refine tokens.moveTo ?_ rfl tokens.nodup
  rintro (other | _ | other) q
  · have hnone := hnone (.caller other)
    simp only [Held, putWorker, setScheduled] at hnone ⊢
    grind
  · have hnone := hnone .channel
    simp only [Held, putWorker, setScheduled] at hnone ⊢
    grind
  · have hnone := hnone (.worker other)
    simp only [Held, putWorker, setScheduled, Function.update_apply] at hnone ⊢
    grind [Shift.ticket?]

end Tokens

/-- A step moves at most one ticket. -/
lemma Takes.tokens {place : π → Option (Place ι ω)} (takes : pool.Takes limit move after)
    (tokens : Tokens pool place) : ∃ next, Tokens after next := by
  cases takes with
  | submit project changes trigger hcaller =>
    exact ⟨place, tokens.stay (bind_update hcaller rfl) (fun _ => rfl) rfl rfl⟩
  | leave hcaller | count hcaller =>
    exact ⟨place, tokens.stay (bind_update hcaller rfl) (fun _ => rfl) rfl rfl⟩
  | claim hcaller hfree => exact ⟨_, tokens.claim hcaller hfree⟩
  | send hcaller => exact ⟨_, tokens.send hcaller⟩
  | cancel project => exact ⟨place, tokens.stay (fun _ => rfl) (fun _ => rfl) rfl rfl⟩
  | receive hworker htickets => exact ⟨_, tokens.receive hworker htickets⟩
  | learn context hworker =>
    exact ⟨place, tokens.stay (fun _ => rfl) (bind_update hworker rfl) rfl rfl⟩
  | drain hworker _ | empty hworker _ | refill hworker _ | done hworker _ | yield hworker _ =>
    exact ⟨place, tokens.stay (fun _ => rfl) (bind_update hworker rfl) rfl rfl⟩
  | finish hworker =>
    exact ⟨place, tokens.stay (fun _ => rfl) (bind_update hworker rfl) rfl rfl⟩
  | release hworker => exact ⟨_, tokens.release hworker⟩
  | reclaim hworker hfree => exact ⟨_, tokens.reclaim hworker hfree⟩

/-! ## What is outstanding -/

/-- The set has those whose state satisfies the condition. -/
def Marks {α β : Type} (states : α → β) (condition : β → Prop) (marked : Finset α) : Prop :=
  ∀ a, a ∈ marked ↔ condition (states a)

namespace Marks

variable {α β : Type} [DecidableEq α] {states : α → β} {condition : β → Prop} {marked : Finset α}
  {a : α} {old new : β}

lemma stay (marks : Marks states condition marked) (hold : states a = old)
    (h : condition new ↔ condition old) :
    Marks (Function.update states a new) condition marked := by
  rintro b
  rw [marks, Function.update_apply]
  split
  · next hb => rw [hb, hold, h]
  · rfl

/-- One more satisfies it. -/
lemma insert (marks : Marks states condition marked) (hold : ¬ condition (states a)) (new : β)
    (hnew : condition new) : Marks (Function.update states a new) condition (insert a marked) ∧
      (insert a marked).card = marked.card + 1 := by
  constructor
  · rintro b
    rw [Finset.mem_insert, marks, Function.update_apply]
    split
    · next hb => simp [hb, hnew]
    · next hb => simp [hb]
  · exact Finset.card_insert_of_notMem fun h => hold ((marks a).mp h)

/-- One less satisfies it. -/
lemma erase (marks : Marks states condition marked) (hold : condition (states a)) (new : β)
    (hnew : ¬ condition new) : Marks (Function.update states a new) condition (marked.erase a) ∧
      (marked.erase a).card + 1 = marked.card := by
  constructor
  · rintro b
    rw [Finset.mem_erase, marks, Function.update_apply]
    split
    · next hb => simp [hb, hnew]
    · next hb => simp [hb]
  · exact Finset.card_erase_add_one ((marks a).mpr hold)

end Marks

/-- The caller has counted its ticket. -/
def IsCounted (submission : Option (Submission π)) : Prop :=
  ∃ project, submission = some (.counted project)

/-- What is outstanding are the tickets that callers have counted, those in the channel, and those
that workers have not finished. -/
structure Tally (pool : Pool ι ω π) (callers : Finset ι) (workers : Finset ω) : Prop where
  counted : Marks pool.caller IsCounted callers
  busy : Marks pool.worker (· ≠ none) workers
  outstanding : pool.outstanding = callers.card + pool.tickets.length + workers.card

omit [DecidableEq ι] [DecidableEq ω] [DecidableEq π] in
lemma tally_start (stores : π → PatternStore) : Tally (start stores : Pool ι ω π) ∅ ∅ where
  counted := by simp [Marks, IsCounted, start]
  busy := by simp [Marks, start]
  outstanding := rfl

lemma Takes.tally {callers : Finset ι} {workers : Finset ω} (takes : pool.Takes limit move after)
    (tally : Tally pool callers workers) : ∃ callers workers, Tally after callers workers := by
  have houtstanding := tally.outstanding
  cases takes with
  | submit project changes trigger hcaller =>
    exact ⟨callers, workers, tally.counted.stay hcaller (by simp [IsCounted]), tally.busy,
      houtstanding⟩
  | claim hcaller _ | leave hcaller _ =>
    exact ⟨callers, workers, tally.counted.stay hcaller (by simp [IsCounted]), tally.busy,
      houtstanding⟩
  | cancel project => exact ⟨callers, workers, tally.counted, tally.busy, houtstanding⟩
  | @count caller project hcaller =>
    have hnot : ¬ IsCounted (pool.caller caller) := by simp [IsCounted, hcaller]
    obtain ⟨marks, hcard⟩ := tally.counted.insert hnot (some (.counted project)) ⟨project, rfl⟩
    refine ⟨_, workers, marks, tally.busy, ?_⟩
    show pool.outstanding + 1 = _ + pool.tickets.length + _
    omega
  | send hcaller =>
    obtain ⟨marks, hcard⟩ := tally.counted.erase ⟨_, hcaller⟩ none (by simp [IsCounted])
    refine ⟨_, workers, marks, tally.busy, ?_⟩
    show pool.outstanding = _
    rw [List.length_append, List.length_singleton]
    omega
  | @receive worker project tickets hworker htickets =>
    obtain ⟨marks, hcard⟩ := tally.busy.insert (fun h => h hworker) (some (.draining project))
      (by simp)
    refine ⟨callers, _, tally.counted, marks, ?_⟩
    rw [htickets, List.length_cons] at houtstanding
    show pool.outstanding = _ + tickets.length + _
    omega
  | drain hworker _ | empty hworker _ | learn _ hworker | release hworker | refill hworker _
  | done hworker _ | reclaim hworker _ | yield hworker _ =>
    exact ⟨callers, workers, tally.counted, tally.busy.stay hworker (by simp), houtstanding⟩
  | @finish worker hworker =>
    have hbusy : pool.worker worker ≠ none := by simp [hworker]
    obtain ⟨marks, hcard⟩ := tally.busy.erase hbusy none (by simp)
    refine ⟨callers, _, tally.counted, marks, ?_⟩
    show pool.outstanding - 1 = _ + pool.tickets.length + _
    omega

end Pool

end HouseStyle
