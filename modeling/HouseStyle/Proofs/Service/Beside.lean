import HouseStyle.Proofs.Portfolio.Registrations
import HouseStyle.Service.Request

/-!
# What goes on beside the register

Most of what a service does opens no project and changes no registration: batches are learned,
texts are checked, listeners are told, files and the clock change. All that is one relation
between the service before and after, which every action is shown to keep to that works on a
project that is open already.
-/

namespace HouseStyle

/-! ## Keys -/

section Keyed

variable {κ α : Type} [BEq κ] [LawfulBEq κ] {key k : κ} {value : α} {entries : List (κ × α)}

lemma hasKey_eq_any : hasKey k entries = entries.any (·.1 == k) := by
  unfold hasKey
  induction entries with
  | nil => rfl
  | cons entry entries ih =>
    rw [List.lookup_cons, List.any_cons, ← ih, BEq.comm]
    cases entry.1 == k <;> rfl

omit [LawfulBEq κ] in
lemma hasKey_of_lookup (h : entries.lookup key = some value) : hasKey key entries = true := by
  rw [hasKey, h]
  rfl

lemma hasKey_putKeyed :
    hasKey k (putKeyed key value entries) = (key == k || hasKey k entries) := by
  rw [hasKey_eq_any, hasKey_eq_any, putKeyed]
  split
  · next hany =>
    have hput : ∀ entry : κ × α, (if entry.1 == key then (key, value) else entry).1 = entry.1 := by
      intro entry
      split
      · next h => exact (beq_iff_eq.mp h).symm
      · rfl
    simp only [List.any_map, Function.comp_def, hput]
    by_cases hk : key = k
    · subst hk
      rw [hany, Bool.or_true]
    · rw [beq_false_of_ne hk, Bool.false_or]
  · rw [List.any_append, List.any_cons, List.any_nil, Bool.or_false, Bool.or_comm]

lemma hasKey_eraseKeyed :
    hasKey k (eraseKeyed key entries) = (key != k && hasKey k entries) := by
  rw [hasKey_eq_any, hasKey_eq_any, eraseKeyed, List.any_filter]
  by_cases hk : key = k
  · subst hk
    simp [List.any_eq_false]
  · rw [bne_iff_ne.mpr hk, Bool.true_and]
    congr 1
    funext entry
    by_cases hentry : entry.1 = k
    · simp [hentry, Ne.symm hk]
    · simp [hentry]

lemma lookup_putKeyed_self : (putKeyed key value entries).lookup key = some value := by
  unfold putKeyed
  split
  · next hany =>
    induction entries with
    | nil => cases hany
    | cons entry entries ih =>
      rw [List.map_cons]
      by_cases hentry : entry.1 = key
      · simp [hentry]
      · rw [if_neg (by simpa using hentry), List.lookup_cons, beq_false_of_ne (Ne.symm hentry)]
        exact ih (by simpa [hentry] using hany)
  · next hnone =>
    rw [← hasKey_eq_any, hasKey, Bool.not_eq_true, Option.isSome_eq_false_iff,
      Option.isNone_iff_eq_none] at hnone
    simp [List.lookup_append, hnone]

end Keyed

namespace Service

variable {α β : Type} {service mid after : Service}

/-! ## Carrying actions out -/

/-- What an action answers, and the service that it leaves. -/
def carryOut (service : Service) (act : ServiceM α) : Except Report α × Service :=
  act.run.run service

@[simp] lemma carryOut_pure (a : α) : service.carryOut (pure a) = (.ok a, service) := rfl

@[simp] lemma carryOut_throw (report : Report) :
    service.carryOut (throw report : ServiceM α) = (.error report, service) := rfl

@[simp] lemma carryOut_get : service.carryOut get = (.ok service, service) := rfl

@[simp] lemma carryOut_set : service.carryOut (set after) = (.ok ⟨⟩, after) := rfl

@[simp] lemma carryOut_modify (change : Service → Service) :
    service.carryOut (modify change) = (.ok ⟨⟩, change service) := rfl

lemma carryOut_bind (act : ServiceM α) (next : α → ServiceM β) :
    service.carryOut (act >>= next) =
      match service.carryOut act with
      | (.ok a, mid) => mid.carryOut (next a)
      | (.error report, mid) => (.error report, mid) := by
  simp only [carryOut, ExceptT.run_bind, StateT.run_bind]
  rcases act.run.run service with ⟨result | result, mid⟩ <;> rfl

lemma carryOut_get_bind (next : Service → ServiceM α) :
    service.carryOut (get >>= next) = service.carryOut (next service) := rfl

lemma carryOut_set_bind (next : PUnit → ServiceM α) :
    service.carryOut (set after >>= next) = after.carryOut (next ⟨⟩) := rfl

lemma carryOut_finally (act : ServiceM α) (change : Service → Service) :
    service.carryOut (tryFinally act (modify change)) =
      ((service.carryOut act).1, change (service.carryOut act).2) := by
  unfold carryOut
  obtain ⟨result, mid, h⟩ : ∃ result mid, act.run.run service = (result, mid) := ⟨_, _, rfl⟩
  rw [h]
  change act service = (result, mid) at h
  simp only [tryFinally, tryFinally', ExceptT.run, ExceptT.mk, ExceptT.map, StateT.run,
    StateT.bind, Functor.map, bind, pure, h]
  cases result <;> rfl

lemma carryOut_orFail {ε : Type} (wrap : ε → OperationError) (outcome : Except ε α) :
    service.carryOut (orFail wrap outcome) =
      (outcome.mapError fun error => .ofError (wrap error), service) := by
  cases outcome <;> rfl

lemma carryOut_orFail_bind {ε : Type} (wrap : ε → OperationError) (outcome : Except ε α)
    (next : α → ServiceM β) : service.carryOut (orFail wrap outcome >>= next) =
      match outcome with
      | .ok a => service.carryOut (next a)
      | .error error => (.error (.ofError (wrap error)), service) := by
  cases outcome <;> rfl

/-- What holds after an action and after all that may follow it holds after both. -/
lemma bind_ends {P : Service → Prop} {act : ServiceM α} {next : α → ServiceM β}
    (first : P (service.carryOut act).2)
    (rest : ∀ a mid, service.carryOut act = (.ok a, mid) → P (mid.carryOut (next a)).2) :
    P (service.carryOut (act >>= next)).2 := by
  rw [carryOut_bind]
  rcases h : service.carryOut act with ⟨report | a, mid⟩
  · rw [h] at first
    exact first
  · exact rest a mid h

/-! ## Beside the register -/

/-- Whether a service has a project open, or a store of it attached, or a queue for it. -/
def Holds (service : Service) (id : String) : Prop :=
  hasKey id service.projects = true ∨ hasKey id service.attached = true ∨
    hasKey id service.scheduler.slots = true

/-- No project was opened and no registration has changed. Everything else may be different:
files, the clock and listeners, the stores of projects, syncs and aggregations, the batches that
wait, and the writes that databases refuse. -/
structure Beside (service after : Service) : Prop where
  held : ∀ id, after.Holds id → service.Holds id
  registrations : after.portfolio.registrations = service.portfolio.registrations
  honest : service.portfolio.faults.Honest → after.portfolio.faults.Honest

namespace Beside

lemma refl (service : Service) : service.Beside service := ⟨fun _ h => h, rfl, fun h => h⟩

lemma trans (first : service.Beside mid) (second : mid.Beside after) : service.Beside after where
  held := fun id h => first.held id (second.held id h)
  registrations := second.registrations.trans first.registrations
  honest := fun h => second.honest (first.honest h)

lemma of_portfolio (hportfolio : after.portfolio = service.portfolio)
    (held : ∀ id, after.Holds id → service.Holds id) : service.Beside after :=
  ⟨held, by rw [hportfolio], fun h => by rwa [hportfolio]⟩

end Beside

lemma beside_withStore (service : Service) (number : Nat) (store : PatternStore) :
    service.Beside (service.withStore number store) :=
  .of_portfolio rfl fun _ h => h

lemma announceAll_databases (host : Host) (events : List Event) :
    (host.announceAll events).databases = host.databases := by
  unfold Host.announceAll
  induction events generalizing host with
  | nil => rfl
  | cons event events ih => exact ih (host.announce event)

lemma portfolio_announceAll (service : Service) (events : List Event) :
    (service.announceAll events).portfolio = service.portfolio := by
  rw [portfolio, announceAll, announceAll_databases]
  rfl

lemma beside_announceAll (service : Service) (events : List Event) :
    service.Beside (service.announceAll events) :=
  .of_portfolio (service.portfolio_announceAll events) fun _ h => h

/-! ### The scheduler -/

variable {id : String} {slot : Slot}

lemma beside_putSlot (h : service.scheduler.slots.lookup id = some slot) (changed : Slot) :
    service.Beside (service.putSlot id changed) := by
  refine .of_portfolio rfl fun k hk => ?_
  simp only [Holds, putSlot, hasKey_putKeyed] at hk ⊢
  rcases hk with hk | hk | hk
  · exact .inl hk
  · exact .inr (.inl hk)
  · rcases Bool.or_eq_true _ _ ▸ hk with hid | hk
    · obtain rfl := beq_iff_eq.mp hid
      exact .inr (.inr (hasKey_of_lookup h))
    · exact .inr (.inr hk)

lemma beside_putWork (h : service.scheduler.slots.lookup id = some slot) (work : Work) :
    service.Beside (service.putWork id slot work) := by
  have hput := ((service.beside_withStore slot.project.store work.store).trans
    (beside_announceAll _ work.events)).trans (beside_putSlot (by exact h)
      { slot with
        queue := work.queue, results := work.results, isScheduled := work.waiting.isSome })
  unfold putWork
  split
  · exact hput
  · exact hput.trans (.of_portfolio rfl fun _ h => h)

lemma beside_tickets (service : Service) (tickets : List String) :
    service.Beside { service with scheduler.tickets := tickets } :=
  .of_portfolio rfl fun _ h => h

lemma beside_serve (service : Service) (id : String) : service.Beside (service.serve id) := by
  unfold serve
  split
  · exact .refl service
  · next slot hslot => exact beside_putWork hslot _

lemma beside_settleFor (left : Nat) (service : Service) :
    service.Beside (settleFor left service) := by
  induction left generalizing service with
  | zero => exact .refl service
  | succ left ih =>
    unfold settleFor
    split
    · exact .refl service
    · next id tickets _ =>
      split
      · exact ((service.beside_tickets tickets).trans (beside_serve _ id)).trans (ih _)
      · exact .refl service

lemma beside_settle (service : Service) : service.Beside service.settle := beside_settleFor _ _

lemma beside_resume (service : Service) (batch : WaitingBatch) :
    service.Beside (service.resume batch) := by
  simp only [resume]
  split
  · next slot hslot =>
    obtain ⟨hlookup, -⟩ := Option.filter_eq_some_iff.mp hslot
    exact beside_putWork hlookup _
  · exact (beside_withStore _ _ _).trans (beside_announceAll _ _)

/-- Workers that go on with the batches that waited. -/
theorem beside_letWorkersGo (service : Service) : service.Beside service.letWorkersGo := by
  have hresumed : ∀ (batches : List WaitingBatch) (service : Service),
      service.Beside (batches.foldl resume service) := by
    intro batches
    induction batches with
    | nil => exact .refl
    | cons batch batches ih => exact fun service => (service.beside_resume batch).trans (ih _)
  have hfreed : service.Beside
      { service with scheduler.isHeld := false, scheduler.waiting := [] } :=
    .of_portfolio rfl fun _ h => h
  exact (hfreed.trans (hresumed _ _)).trans (beside_settle _)

lemma beside_holdWorkers (service : Service) : service.Beside service.holdWorkers :=
  .of_portfolio rfl fun _ h => h

/-- Other files, another time and other listeners. -/
lemma beside_host (service : Service) (files : FileNode) (now : Int)
    (listeners : List Listener) :
    service.Beside { service with host.files := files, host.now := now,
                                  host.listeners := listeners } :=
  .of_portfolio rfl fun _ h => h

/-! ### Actions on open projects -/

/-- Whatever it answers, an action opens no project and changes no registration. -/
def IsBeside (act : ServiceM α) : Prop :=
  ∀ service : Service, service.Beside (service.carryOut act).2

variable {act : ServiceM α} {next : α → ServiceM β}

lemma isBeside_pure (a : α) : IsBeside (pure a) := fun service => .refl service

lemma isBeside_orFail {ε : Type} (wrap : ε → OperationError) (outcome : Except ε α) :
    IsBeside (orFail wrap outcome) := by
  intro service
  rw [carryOut_orFail]
  exact .refl service

lemma isBeside_modify {change : Service → Service}
    (h : ∀ service : Service, service.Beside (change service)) : IsBeside (modify change) := h

lemma isBeside_bind (first : IsBeside act) (rest : ∀ a, IsBeside (next a)) :
    IsBeside (act >>= next) := by
  intro service
  refine bind_ends (first service) fun a mid hact => ?_
  have hmid := first service
  rw [hact] at hmid
  exact hmid.trans (rest a mid)

/-- An action that begins with a look at the service. -/
lemma isBeside_get {next : Service → ServiceM β}
    (rest : ∀ service : Service, service.Beside (service.carryOut (next service)).2) :
    IsBeside (get >>= next) := rest

lemma isBeside_keepLearned (project : OpenProject) (learned : Learned) :
    IsBeside (keepLearned project learned) := by
  refine isBeside_bind (isBeside_modify fun service => ?_) fun _ => isBeside_orFail _ _
  exact (beside_withStore _ _ _).trans (beside_announceAll _ _)

/-- The slot of a project, which is there when one is given. -/
lemma carryOut_slot {found : Slot} (h : service.carryOut (Service.slot id) = (.ok found, after)) :
    after = service ∧ service.scheduler.slots.lookup id = some found := by
  rw [Service.slot, carryOut_get_bind] at h
  cases hslot : service.scheduler.slots.lookup id with
  | none =>
    rw [hslot] at h
    cases h
  | some slot =>
    rw [hslot] at h
    cases h
    exact ⟨rfl, rfl⟩

lemma isBeside_slot (id : String) : IsBeside (Service.slot id) := by
  refine isBeside_get fun service => ?_
  split
  · exact .refl service
  · exact isBeside_orFail _ _ service

lemma beside_schedule (h : service.scheduler.slots.lookup id = some slot) (changed : Slot) :
    service.Beside (service.carryOut (schedule id changed)).2 := by
  have hput : service.Beside (service.putSlot id { changed with isScheduled := true }) :=
    beside_putSlot h _
  unfold schedule
  split
  · exact .refl service
  · rw [carryOut_get_bind]
    split
    · exact bind_ends (isBeside_orFail _ _ service) fun _ _ hfail => nomatch hfail
    · exact (hput.trans (beside_tickets _ _)).trans (beside_settle _)

/-- A slot that is put back and then scheduled. -/
lemma beside_reschedule (h : service.scheduler.slots.lookup id = some slot) (changed : Slot) :
    service.Beside (service.carryOut (do
      modify fun service => service.putSlot id changed
      schedule id changed)).2 := by
  have hlookup : (service.putSlot id changed).scheduler.slots.lookup id = some changed :=
    lookup_putKeyed_self
  exact (beside_putSlot h changed).trans (beside_schedule hlookup changed)

lemma isBeside_submit (id : String) (changes : List FileChange) (trigger : Trigger) :
    IsBeside (submit id changes trigger) := by
  intro service
  refine bind_ends (isBeside_slot id service) fun found mid hfound => ?_
  obtain ⟨rfl, hslot⟩ := carryOut_slot hfound
  exact beside_reschedule hslot _

lemma isBeside_takeResults (id : String) : IsBeside (takeResults id) := by
  refine isBeside_get fun service => ?_
  split
  · exact .refl service
  · next slot hslot => exact beside_putSlot hslot _

/-! ### Opening stores -/

lemma makeDirectory_databases {host made : Host} {directory : String}
    (h : host.makeDirectory directory = .ok made) : made.databases = host.databases := by
  simp only [Host.makeDirectory] at h
  split at h
  · split at h
    · cases h
      rfl
    · cases h
  · cases h
    rfl
  · cases h

/-- Opening a store leaves every portfolio alone, whether the store is made or found. -/
lemma openStore_portfolio {host left : Host} {root : String} {number : Nat}
    (h : host.openStore root = .ok (left, number)) (n : Nat) :
    left.databases.portfolio n = host.databases.portfolio n := by
  obtain ⟨made, hmade, h⟩ := bind_eq_ok.mp h
  rw [← makeDirectory_databases hmade]
  simp only at h
  split at h
  · obtain ⟨rfl, -⟩ := Prod.mk.inj (pure_eq_ok.mp h)
    rfl
  · obtain ⟨rfl, -⟩ := Prod.mk.inj (pure_eq_ok.mp h)
    rfl
  · cases h
  · split at h
    · obtain ⟨rfl, -⟩ := Prod.mk.inj (pure_eq_ok.mp h)
      rfl
    · cases h
  · split at h
    · obtain ⟨rfl, -⟩ := Prod.mk.inj (pure_eq_ok.mp h)
      rfl
    · cases h

lemma beside_openedHost {left : Host} {root : String} {number : Nat}
    (h : service.host.openStore root = .ok (left, number)) :
    service.Beside { service with host := left } :=
  .of_portfolio (openStore_portfolio h service.portfolioNumber) fun _ h => h

lemma beside_openStore {path : String} {number : Nat}
    (h : service.openStore path = .ok (after, number)) : service.Beside after := by
  unfold openStore at h
  split at h
  · cases h
    exact .of_portfolio rfl fun _ h => h
  · cases hopen : service.host.openStore path with
    | error error =>
      rw [hopen] at h
      cases h
    | ok opened =>
      rw [hopen] at h
      cases h
      exact beside_openedHost hopen

end Service

end HouseStyle
