import HouseStyle.Proofs.Service.Beside

/-!
# Unlinked projects stay closed

Whether a project is active is looked up only when it is opened. That is enough, since a service
lets go of a project when it is unlinked: whatever is called, and whatever goes on beside the
calls, it holds active projects only. So an unlinked project is looked up again by every operation
that needs it, and refused, until its path is linked.
-/

namespace HouseStyle

namespace Service

variable {α β : Type} {service mid after : Service} {closed : List (String × String)} {id : String}

/-- What holds of a service at all times, some projects being closed, each with its path. -/
structure Guards (closed : List (String × String)) (service : Service) : Prop where
  honest : service.portfolio.faults.Honest
  distinct : (service.portfolio.registrations.map (·.id)).Nodup
  held : ∀ id, service.Holds id → service.portfolio.IsLinked id
  unlinked : ∀ project ∈ closed, service.portfolio.IsUnlinked project.1 project.2

namespace Guards

lemma beside (guards : Guards closed service) (beside : service.Beside after) :
    Guards closed after where
  honest := beside.honest guards.honest
  distinct := beside.registrations ▸ guards.distinct
  held := fun id h => by
    rw [Portfolio.IsLinked, beside.registrations]
    exact guards.held id (beside.held id h)
  unlinked := fun project h => by
    rw [Portfolio.IsUnlinked, beside.registrations]
    exact guards.unlinked project h

lemma not_held {path : String} (guards : Guards closed service) (h : (id, path) ∈ closed) :
    ¬ service.Holds id :=
  fun held => (guards.unlinked _ h).not_linked guards.distinct (guards.held id held)

/-- A project may be taken hold of while it is active. -/
lemma taking (guards : Guards closed service) (linked : service.portfolio.IsLinked id)
    (hportfolio : after.portfolio = service.portfolio)
    (hheld : ∀ k, after.Holds k → id = k ∨ service.Holds k) : Guards closed after where
  honest := hportfolio ▸ guards.honest
  distinct := hportfolio ▸ guards.distinct
  held := fun k h => by
    rw [hportfolio]
    rcases hheld k h with rfl | hk
    · exact linked
    · exact guards.held k hk
  unlinked := hportfolio ▸ guards.unlinked

lemma isBeside {act : ServiceM α} (guards : Guards closed service) (h : IsBeside act) :
    Guards closed (service.carryOut act).2 :=
  guards.beside (h service)

/-- An action after which the guards hold, and then another that keeps to the register. -/
lemma then_isBeside {act : ServiceM α} {next : α → ServiceM β}
    (guards : Guards closed (service.carryOut act).2) (h : ∀ a, IsBeside (next a)) :
    Guards closed (service.carryOut (act >>= next)).2 :=
  bind_ends guards fun a mid hact => by
    rw [hact] at guards
    exact guards.isBeside (h a)

end Guards

/-! ## Opening -/

lemma holds_enroll {project : OpenProject} {k : String} (h : (service.enroll id project).Holds k) :
    id = k ∨ service.Holds k := by
  simp only [Holds, enroll, hasKey_putKeyed, Bool.or_eq_true, beq_iff_eq] at h ⊢
  tauto

/-- Only a project that is active is opened. -/
lemma Guards.project (guards : Guards closed service) (id : String) :
    Guards closed (service.carryOut (Service.project id)).2 := by
  unfold Service.project
  rw [carryOut_get_bind]
  split
  · exact guards
  · rw [carryOut_orFail_bind]
    split
    · next found hfound =>
      cases found with
      | none => exact guards
      | some row =>
        simp only
        split
        · exact guards
        · next hactive =>
          rw [carryOut_orFail_bind]
          split
          · next opened hopened =>
            obtain ⟨left, number⟩ := opened
            have beside := beside_openStore hopened
            have linked : left.portfolio.IsLinked id := by
              rw [Portfolio.IsLinked, beside.registrations]
              exact Portfolio.findProject_linked hfound (by simpa using hactive)
            exact (guards.beside beside).taking linked rfl fun k hk => holds_enroll hk
          · exact guards
    · exact guards

/-- A project that is unlinked is not opened, and nothing changes. -/
lemma Guards.project_refused {path : String} (guards : Guards closed service)
    (h : (id, path) ∈ closed) :
    service.carryOut (Service.project id) = (.error (.inactiveProject id), service) := by
  have hnone : service.projects.lookup id = none := by
    cases hlookup : service.projects.lookup id with
    | none => rfl
    | some project => exact absurd (.inl (hasKey_of_lookup hlookup)) (guards.not_held h)
  obtain ⟨project, hfind, hinactive⟩ :=
    Portfolio.findProject_unlinked guards.distinct (guards.unlinked _ h)
  unfold Service.project
  rw [carryOut_get_bind, hnone]
  simp only
  rw [carryOut_orFail_bind, hfind]
  simp only [hinactive]
  rfl

/-! ## Syncing -/

lemma holds_attach (left : Host) (number : Nat) {k : String}
    (h : ({ service with host := left, attached := putKeyed id number service.attached } :
      Service).Holds k) : id = k ∨ service.Holds k := by
  simp only [Holds, hasKey_putKeyed, Bool.or_eq_true, beq_iff_eq] at h ⊢
  tauto

/-- A store may be attached for an active project, which leaves the portfolio alone. -/
lemma Guards.attachedStore {row : ProjectRow} (guards : Guards closed service)
    (linked : service.portfolio.IsLinked row.id) :
    Guards closed (service.carryOut (Service.attachedStore row)).2 ∧
      (service.carryOut (Service.attachedStore row)).2.portfolio = service.portfolio := by
  unfold Service.attachedStore
  rw [carryOut_get_bind]
  split
  · exact ⟨guards, rfl⟩
  · rw [carryOut_orFail_bind]
    split
    · next opened hopened =>
      obtain ⟨left, number⟩ := opened
      have hsame : ∀ attached, ({ service with host := left, attached } : Service).portfolio =
          service.portfolio := fun _ =>
        openStore_portfolio (mapError_eq_ok.mp hopened) service.portfolioNumber
      exact ⟨guards.taking linked (hsame _) fun _ => holds_attach left number, hsame _⟩
    · exact ⟨guards, rfl⟩

lemma portfolio_withPortfolio (service : Service) (portfolio : Portfolio) :
    (service.withPortfolio portfolio).portfolio = portfolio := by
  simp only [withPortfolio, Service.portfolio, Databases.putPortfolio, Databases.portfolio,
    lookup_putKeyed_self, Option.getD_some]

/-- A portfolio with the same registrations, and what is told of it. -/
lemma beside_withPortfolio {portfolio : Portfolio} (events : List Event)
    (registrations : portfolio.registrations = service.portfolio.registrations)
    (honest : service.portfolio.faults.Honest → portfolio.faults.Honest) :
    service.Beside ((service.withPortfolio portfolio).announceAll events) := by
  refine ⟨fun _ h => h, ?_, ?_⟩
  · rw [portfolio_announceAll, portfolio_withPortfolio, registrations]
  · rw [portfolio_announceAll, portfolio_withPortfolio]
    exact honest

lemma Guards.syncClaimed (guards : Guards closed service) (id : String) :
    Guards closed (service.carryOut (Service.syncClaimed id)).2 := by
  unfold Service.syncClaimed
  rw [carryOut_get_bind, carryOut_orFail_bind]
  split
  · next row hrow =>
    have linked : service.portfolio.IsLinked row.id := Portfolio.activeProject_linked hrow
    obtain ⟨guarded, hportfolio⟩ := guards.attachedStore linked
    refine bind_ends guarded fun number mid hattached => ?_
    rw [hattached] at guarded hportfolio
    rw [carryOut_get_bind, carryOut_set_bind, carryOut_orFail]
    have hsync : mid.portfolio.syncFrom mid.attempts mid.host.now row (mid.store number) =
        mid.portfolio.sync mid.attempts mid.host.now id (mid.store number) := by
      rw [Portfolio.sync, show mid.portfolio.activeProject id = .ok row by rw [hportfolio, hrow]]
    refine guarded.beside (beside_withPortfolio _ ?_ fun honest => ?_)
    · rw [hsync, Portfolio.sync_registrations guarded.honest]
    · rw [hsync, (Portfolio.sync_moved guarded.honest _ _ _ _).faults]
      exact honest
  · exact guards

lemma isBeside_beginSync (id : String) : IsBeside (beginSync id) := by
  refine isBeside_get fun service => ?_
  split
  · exact bind_ends (isBeside_orFail _ _ service) fun _ _ hfail => nomatch hfail
  · exact .of_portfolio rfl fun _ h => h

lemma beside_endSync (service : Service) (id : String) : service.Beside (service.endSync id) :=
  .of_portfolio rfl fun _ h => h

lemma Guards.syncAttached (guards : Guards closed service) (id : String) :
    Guards closed (service.carryOut (Service.syncAttached id)).2 := by
  refine bind_ends (guards.isBeside (isBeside_beginSync id)) fun _ mid hbegin => ?_
  have guarded : Guards closed mid := by
    have h := guards.isBeside (isBeside_beginSync id)
    rwa [hbegin] at h
  rw [carryOut_finally]
  exact (guarded.syncClaimed id).beside (beside_endSync _ id)

/-! ## Linking and unlinking -/

lemma Guards.admitted {path : String} (guards : Guards closed service)
    (hheld : ∀ k, after.Holds k → service.Holds k)
    (admitted : Portfolio.Admitted path service.portfolio.registrations
      after.portfolio.registrations)
    (hfaults : after.portfolio.faults = service.portfolio.faults)
    (other : ∀ project ∈ closed, path ≠ project.2) : Guards closed after where
  honest := hfaults ▸ guards.honest
  distinct := admitted.distinct guards.distinct
  held := fun k h => admitted.linked (guards.held k (hheld k h))
  unlinked := fun project h =>
    admitted.unlinked guards.distinct (guards.unlinked project h) (other project h)

/-- Another path than those of the closed projects may be linked. -/
lemma Guards.linkProject (guards : Guards closed service) {path : String}
    {metadata : ProjectMetadata}
    (other : ∀ directory, projectDirectory service.host path = .ok directory →
      ∀ project ∈ closed, directory ≠ project.2) :
    Guards closed (service.carryOut (Service.linkProject path metadata)).2 := by
  unfold Service.linkProject
  rw [carryOut_get_bind, carryOut_orFail_bind]
  split
  · next directory hdirectory =>
    simp only
    rw [carryOut_orFail_bind]
    split
    · next linked hlinked =>
      obtain ⟨portfolio, row, relinked⟩ := linked
      obtain ⟨admitted, hfaults⟩ :=
        Portfolio.link_admitted (mapError_eq_ok.mp hlinked) guards.honest
      rw [← portfolio_withPortfolio service portfolio] at admitted hfaults
      rw [carryOut_set_bind]
      refine Guards.isBeside (guards.admitted (by exact fun _ h => h) (by exact admitted)
        (by exact hfaults) (other directory hdirectory)) ?_
      exact isBeside_bind (isBeside_orFail _ _) fun project =>
        isBeside_bind (isBeside_modify fun _ => beside_announceAll _ _) fun _ => isBeside_pure _
    · exact guards
  · exact guards

/-- A service that has let go of a project. -/
def released (service : Service) (id : String) : Service :=
  { service with
    projects := eraseKeyed id service.projects
    attached := eraseKeyed id service.attached
    scheduler.slots := eraseKeyed id service.scheduler.slots }

lemma carryOut_release :
    service.carryOut (release id) = (.ok (hasKey id service.projects), service.released id) := rfl

lemma holds_released {k : String} (h : (service.released id).Holds k) :
    k ≠ id ∧ service.Holds k := by
  simp only [Holds, released, hasKey_eraseKeyed, Bool.and_eq_true, bne_iff_ne] at h ⊢
  tauto

/-- A service with the portfolio that unlinking has led to. -/
def withdrawn (service : Service) (id : String) (portfolio : Portfolio) (wasActive : Bool) :
    Service :=
  ((service.withPortfolio portfolio).announceAll
    (if wasActive then [.projectUnlinked id] else [])).released id

/-- How unlinking goes: nothing happens, or the project is deactivated and let go of. Then it is
looked up for the answer. -/
lemma unlinkProject_cases (service : Service) (id : String) :
    (∃ report, service.carryOut (unlinkProject id) = (.error report, service)) ∨
    ∃ portfolio wasActive,
      service.portfolio.unlink service.attempts service.host.now id = .ok (portfolio, wasActive) ∧
      (service.carryOut (unlinkProject id)).2 = service.withdrawn id portfolio wasActive ∧
      ∀ project, (service.carryOut (unlinkProject id)).1 = .ok project →
        portfolio.findProject id = .ok (some project) := by
  unfold unlinkProject
  rw [carryOut_get_bind, carryOut_orFail_bind]
  split
  · next unlinked hunlinked =>
    obtain ⟨portfolio, wasActive⟩ := unlinked
    refine .inr ⟨portfolio, wasActive, hunlinked, ?_⟩
    simp only
    rw [carryOut_set_bind, carryOut_bind, carryOut_release]
    simp only
    rw [carryOut_orFail_bind]
    cases hfound : portfolio.findProject id with
    | error error => exact ⟨rfl, nofun⟩
    | ok found =>
      cases found with
      | none => exact ⟨rfl, nofun⟩
      | some project => exact ⟨rfl, fun _ h => by rw [Except.ok.inj h]⟩
  · exact .inl ⟨_, rfl⟩

lemma portfolio_withdrawn (service : Service) (id : String) (portfolio : Portfolio)
    (wasActive : Bool) : (service.withdrawn id portfolio wasActive).portfolio = portfolio :=
  (portfolio_announceAll _ _).trans (service.portfolio_withPortfolio portfolio)

section Unlinking

variable {portfolio : Portfolio} {wasActive : Bool}
  (h : service.portfolio.unlink service.attempts service.host.now id = .ok (portfolio, wasActive))

include h

lemma Guards.withdrawn (guards : Guards closed service) :
    Guards closed (service.withdrawn id portfolio wasActive) := by
  obtain ⟨-, hleft, hfaults⟩ := Portfolio.unlink_registrations h guards.honest guards.distinct
  have hportfolio := service.portfolio_withdrawn id portfolio wasActive
  constructor
  · rw [hportfolio, hfaults]
    exact guards.honest
  · rw [hportfolio, hleft, Portfolio.ids_changedAt (by exact fun _ => rfl)]
    exact guards.distinct
  · intro k hk
    obtain ⟨hother, hheld⟩ := holds_released hk
    rw [hportfolio]
    exact (guards.held k hheld).unlinking hleft hother
  · intro project hproject
    rw [hportfolio]
    exact (guards.unlinked project hproject).unlinking hleft

/-- A project that was unlinked and found is closed from then on. -/
lemma Guards.closing (guards : Guards closed service) {project : Project}
    (hfound : portfolio.findProject id = .ok (some project)) :
    Guards ((id, project.path) :: closed) (service.withdrawn id portfolio wasActive) := by
  have guarded := guards.withdrawn h
  refine ⟨guarded.honest, guarded.distinct, guarded.held, fun other hother => ?_⟩
  rcases List.mem_cons.mp hother with rfl | hother
  · obtain ⟨-, hleft, -⟩ := Portfolio.unlink_registrations h guards.honest guards.distinct
    rw [service.portfolio_withdrawn id portfolio wasActive]
    exact Portfolio.isUnlinked_of_unlinking hleft hfound
  · exact guarded.unlinked other hother

end Unlinking

lemma Guards.unlinkProject (guards : Guards closed service) (id : String) :
    Guards closed (service.carryOut (Service.unlinkProject id)).2 := by
  rcases service.unlinkProject_cases id with ⟨report, h⟩ | ⟨portfolio, wasActive, h, hleft, -⟩
  · rw [h]
    exact guards
  · rw [hleft]
    exact guards.withdrawn h

lemma Guards.unlinkProject_ok (guards : Guards closed service) {project : Project}
    (hanswer : service.carryOut (Service.unlinkProject id) = (.ok project, after)) :
    Guards ((id, project.path) :: closed) after := by
  rcases service.unlinkProject_cases id with ⟨report, h⟩ | ⟨portfolio, wasActive, h, hleft, hfound⟩
  · rw [h] at hanswer
    cases hanswer
  · rw [hanswer] at hleft hfound
    rw [show after = service.withdrawn id portfolio wasActive from hleft]
    exact guards.closing h (hfound project rfl)

/-! ## Calls -/

/-- The request that a call comes to, given by the name of an operation and its arguments. -/
def Asks (name : String) (arguments : Json) (request : Request) : Prop :=
  ∃ operation, Operation.ofName? name = some operation ∧
    Request.ofJson operation arguments = .ok request

lemma carryOut_dispatch {name : String} {arguments : Json} {request : Request}
    (asks : Asks name arguments request) :
    service.carryOut (dispatch name arguments) = service.carryOut (answer request) := by
  obtain ⟨operation, hname, hrequest⟩ := asks
  simp only [dispatch, hname, hrequest]

/-- A call that comes to no request does nothing. -/
lemma dispatch_cases (service : Service) (name : String) (arguments : Json) :
    (∃ request, Asks name arguments request) ∨
      ∃ report, service.carryOut (dispatch name arguments) = (.error report, service) := by
  unfold dispatch
  cases hname : Operation.ofName? name with
  | none => exact .inr ⟨_, rfl⟩
  | some operation =>
    simp only
    cases hrequest : Request.ofJson operation arguments with
    | error report => exact .inr ⟨_, rfl⟩
    | ok request => exact .inl ⟨request, operation, hname, hrequest⟩

/-- A call that links the directory at a path. -/
def Links (service : Service) (path name : String) (arguments : Json) : Prop :=
  ∃ given metadata, Asks name arguments (.linkProject given metadata) ∧
    projectDirectory service.host given = .ok path

/-- Whatever is asked, the guards hold afterwards, unless a closed project is linked. -/
lemma Guards.answer (guards : Guards closed service) (request : Request)
    (other : ∀ path metadata directory, request = .linkProject path metadata →
      projectDirectory service.host path = .ok directory →
        ∀ project ∈ closed, directory ≠ project.2) :
    Guards closed (service.carryOut (Service.answer request)).2 := by
  cases request with
  | processChanges id changes trigger revision =>
    refine Guards.then_isBeside ?_ fun _ => isBeside_pure _
    refine (guards.project id).then_isBeside fun _ => isBeside_get fun service => ?_
    exact isBeside_keepLearned _ _ service
  | queueChanges id changes trigger =>
    refine Guards.then_isBeside ?_ fun _ => isBeside_pure _
    refine (guards.project id).then_isBeside fun _ => ?_
    exact isBeside_bind (isBeside_submit _ _ _) fun _ => isBeside_get fun service => .refl service
  | awaitLearning id =>
    refine Guards.then_isBeside ?_ fun _ => isBeside_pure _
    refine (guards.project id).then_isBeside fun _ => ?_
    exact isBeside_bind (isBeside_takeResults _) fun _ => isBeside_pure _
  | checkCompliance id code path options =>
    refine Guards.then_isBeside ?_ fun _ => isBeside_pure _
    refine (guards.project id).then_isBeside fun _ => isBeside_get fun service => ?_
    refine isBeside_bind (isBeside_modify fun _ => ?_) (fun _ => isBeside_orFail _ _) service
    exact (beside_withStore _ _ _).trans (beside_announceAll _ _)
  | addException id pattern reason scope =>
    refine Guards.then_isBeside ?_ fun _ => isBeside_pure _
    refine (guards.project id).then_isBeside fun _ => isBeside_get fun service => ?_
    rw [carryOut_orFail_bind]
    split
    · exact (beside_withStore _ _ _).trans (beside_announceAll _ _)
    · exact .refl service
  | isExcepted id pattern path =>
    refine Guards.then_isBeside ?_ fun _ => isBeside_pure _
    refine Guards.then_isBeside ?_ fun _ => isBeside_orFail _ _
    exact (guards.project id).then_isBeside fun _ => isBeside_get fun service => .refl service
  | syncProject id =>
    refine Guards.then_isBeside ?_ fun _ => isBeside_pure _
    refine bind_ends (guards.project id) fun _ mid hproject => ?_
    have guarded := guards.project id
    rw [hproject] at guarded
    exact guarded.syncAttached id
  | getAggregations filter =>
    refine Guards.then_isBeside ?_ fun _ => isBeside_pure _
    exact guards.isBeside (isBeside_get fun service => isBeside_orFail _ _ service)
  | getPortfolioView =>
    refine Guards.then_isBeside ?_ fun _ => isBeside_pure _
    exact guards.isBeside (isBeside_get fun service => isBeside_orFail _ _ service)
  | linkProject path metadata =>
    refine Guards.then_isBeside ?_ fun _ => isBeside_pure _
    exact guards.linkProject fun directory => other path metadata directory rfl
  | unlinkProject id =>
    exact (guards.unlinkProject id).then_isBeside fun _ => isBeside_pure _

/-- One call. -/
theorem Guards.dispatch (guards : Guards closed service) (name : String) (arguments : Json)
    (other : ∀ project ∈ closed, ¬ service.Links project.2 name arguments) :
    Guards closed (service.carryOut (Service.dispatch name arguments)).2 := by
  rcases service.dispatch_cases name arguments with ⟨request, asks⟩ | ⟨report, h⟩
  · rw [carryOut_dispatch asks]
    refine guards.answer request fun path metadata directory hrequest hdirectory => ?_
    rintro project hproject rfl
    exact other project hproject ⟨path, metadata, hrequest ▸ asks, hdirectory⟩
  · rw [h]
    exact guards

/-! ### Refusals -/

lemma carryOut_failed {act : ServiceM α} {report : Report}
    (h : service.carryOut act = (.error report, after)) (next : α → ServiceM β) :
    service.carryOut (act >>= next) = (.error report, after) := by
  rw [carryOut_bind, h]

/-- Every operation on a project opens it first, but for unlinking. -/
lemma answer_failed {report : Report}
    (h : service.carryOut (project id) = (.error report, service)) {request : Request}
    (hid : request.projectId? = some id) (hrequest : request ≠ .unlinkProject id) :
    service.carryOut (answer request) = (.error report, service) := by
  cases request with
  | processChanges =>
    obtain rfl := Option.some.inj hid
    exact carryOut_failed (carryOut_failed h _) _
  | queueChanges =>
    obtain rfl := Option.some.inj hid
    exact carryOut_failed (carryOut_failed h _) _
  | awaitLearning =>
    obtain rfl := Option.some.inj hid
    exact carryOut_failed (carryOut_failed h _) _
  | checkCompliance =>
    obtain rfl := Option.some.inj hid
    exact carryOut_failed (carryOut_failed h _) _
  | addException =>
    obtain rfl := Option.some.inj hid
    exact carryOut_failed (carryOut_failed h _) _
  | isExcepted =>
    obtain rfl := Option.some.inj hid
    exact carryOut_failed (carryOut_failed (carryOut_failed h _) _) _
  | syncProject =>
    obtain rfl := Option.some.inj hid
    exact carryOut_failed (carryOut_failed h _) _
  | getAggregations => cases hid
  | getPortfolioView => cases hid
  | linkProject => cases hid
  | unlinkProject =>
    obtain rfl := Option.some.inj hid
    exact absurd rfl hrequest

/-- A project is refused to every operation, and nothing changes. -/
def Refuses (service : Service) (id : String) : Prop :=
  ∀ name arguments request, Asks name arguments request → request.projectId? = some id →
    request ≠ .unlinkProject id →
      service.carryOut (dispatch name arguments) = (.error (.inactiveProject id), service)

lemma Guards.refuses {path : String} (guards : Guards closed service) (h : (id, path) ∈ closed) :
    service.Refuses id := by
  intro name arguments request asks hid hrequest
  rw [carryOut_dispatch asks]
  exact answer_failed (guards.project_refused h) hid hrequest

/-- Where an answer comes from. -/
lemma carryOut_answered {act : ServiceM α} {form : α → β} {b : β}
    (h : service.carryOut (do return form (← act)) = (.ok b, after)) :
    ∃ a, service.carryOut act = (.ok a, after) := by
  rw [carryOut_bind] at h
  rcases hact : service.carryOut act with ⟨report | a, mid⟩
  · rw [hact] at h
    cases h
  · rw [hact] at h
    cases h
    exact ⟨a, rfl⟩

/-! ## Runs -/

/-- The services that follow on one by calls that are admitted and by what goes on beside
the calls. -/
inductive Follows (admitted : Service → String → Json → Prop) (service : Service) :
    Service → Prop where
  | start : Follows admitted service service
  | call {mid : Service} (earlier : Follows admitted service mid) (name : String)
      (arguments : Json) (h : admitted mid name arguments) :
      Follows admitted service (mid.carryOut (dispatch name arguments)).2
  | beside {mid after : Service} (earlier : Follows admitted service mid)
      (h : mid.Beside after) : Follows admitted service after

theorem Guards.follows {admitted : Service → String → Json → Prop}
    (guards : Guards closed service) (follows : Follows admitted service after)
    (other : ∀ (mid : Service) name arguments, admitted mid name arguments →
      ∀ project ∈ closed, ¬ mid.Links project.2 name arguments) :
    Guards closed after := by
  induction follows with
  | start => exact guards
  | call _ name arguments h ih => exact ih.dispatch name arguments (other _ name arguments h)
  | beside _ h ih => exact ih.beside h

/-- A service that starts holds no project. -/
lemma guards_start {host : Host} {options : ServiceOptions}
    (started : start host options = .ok service) (honest : service.portfolio.faults.Honest)
    (distinct : (service.portfolio.projects.map (·.id)).Nodup) : Guards [] service where
  honest := honest
  distinct := service.portfolio.ids_registrations ▸ distinct
  held := fun id held => by
    obtain ⟨settings, -, h⟩ := bind_eq_ok.mp started
    obtain ⟨⟨left, number⟩, -, h⟩ := bind_eq_ok.mp h
    obtain rfl := pure_eq_ok.mp h
    rcases held with held | held | held
    · cases held
    · cases held
    · cases held
  unlinked := nofun

/-- Whatever is called after a service has started, it has a project open, a store of it attached
or a queue for it only while the project is active. And from the time that a project is unlinked
until its path is linked again, it is refused to every operation, and no refusal changes
anything. -/
theorem unlinked_refused {host : Host} {options : ServiceOptions}
    (started : start host options = .ok service) (honest : service.portfolio.faults.Honest)
    (distinct : (service.portfolio.projects.map (·.id)).Nodup) {before : Service}
    (follows : Follows (fun _ _ _ => True) service before) :
    (∀ id, before.Holds id → before.portfolio.IsLinked id) ∧
    ∀ id name arguments answer closed, Asks name arguments (.unlinkProject id) →
      before.carryOut (dispatch name arguments) = (.ok answer, closed) →
      ∃ path, closed.portfolio.IsUnlinked id path ∧
        ∀ after, Follows (fun mid name arguments => ¬ mid.Links path name arguments) closed after →
          ¬ after.Holds id ∧ after.Refuses id := by
  have guards : Guards [] before :=
    (guards_start started honest distinct).follows follows fun _ _ _ _ _ => nofun
  refine ⟨guards.held, fun id name arguments answer closed asks hanswer => ?_⟩
  rw [carryOut_dispatch asks] at hanswer
  obtain ⟨project, hproject⟩ := carryOut_answered hanswer
  have guarded := guards.unlinkProject_ok hproject
  have hclosed : (id, project.path) ∈ [(id, project.path)] := List.mem_singleton_self _
  refine ⟨project.path, guarded.unlinked _ hclosed, fun after later => ?_⟩
  have guarded' := guarded.follows later fun mid name arguments h other hother => by
    obtain rfl := List.mem_singleton.mp hother
    exact h
  exact ⟨guarded'.not_held hclosed, guarded'.refuses hclosed⟩

/-! A project that is linked, opened and unlinked, and then asked for once more. -/

def sampleHost : Host where
  files := .directory [("p", .directory [])]
  environment := ⟨none, []⟩
  databases := .none
  now := 0
  projectCount := 0
  listeners := []

def sampleOptions : ServiceOptions where
  placement := .inMemory
  configText := none
  configRoot := none
  extract := fun path content => .ok (Extraction.lexical path content)

def sampleService : Service where
  options := sampleOptions
  settings := .unset
  host := sampleHost.newPortfolio.1
  portfolioNumber := 0
  projects := []
  attached := []
  syncing := []
  scheduler := .start

def sampleArguments : Json := .object [("project_id", .text "P0001")]

def sampleLinked : Service :=
  (sampleService.carryOut (dispatch "linkProject" (.object [("path", .text "/p")]))).2

def sampleOpened : Service :=
  (sampleLinked.carryOut (dispatch "awaitLearning" sampleArguments)).2

def sampleClosed : Service :=
  (sampleOpened.carryOut (dispatch "unlinkProject" sampleArguments)).2

def sampleLater : Service :=
  (sampleClosed.carryOut (dispatch "getPortfolioView" .null)).2.holdWorkers.letWorkersGo

lemma sampleOpened_follows : Follows (fun _ _ _ => True) sampleService sampleOpened :=
  .call (.call .start _ _ trivial) _ _ trivial

lemma sampleOpened_unlinks : ∃ answer,
    sampleOpened.carryOut (dispatch "unlinkProject" sampleArguments) =
      (.ok answer, sampleClosed) := by
  obtain ⟨answer, h⟩ := exists_ok
    (x := (sampleOpened.carryOut (dispatch "unlinkProject" sampleArguments)).1) (by decide +kernel)
  exact ⟨answer, Prod.ext h rfl⟩

/-- Looking at the portfolio links nothing. -/
lemma sampleClosed_looks (path : String) : ¬ sampleClosed.Links path "getPortfolioView" .null := by
  rintro ⟨given, metadata, ⟨operation, hname, hrequest⟩, -⟩
  obtain rfl : Operation.getPortfolioView = operation := Option.some.inj hname
  cases hrequest

theorem sampleOpened_refused :
    sampleOpened.Holds "P0001" ∧ sampleOpened.portfolio.IsLinked "P0001" ∧
    sampleLater.carryOut (dispatch "syncProject" sampleArguments) =
      (.error (.inactiveProject "P0001"), sampleLater) := by
  have opened : sampleOpened.Holds "P0001" := .inl (by decide +kernel)
  have started : start sampleHost sampleOptions = .ok sampleService := rfl
  obtain ⟨active, refused⟩ :=
    unlinked_refused started Faults.honest_none List.nodup_nil sampleOpened_follows
  obtain ⟨answer, hanswer⟩ := sampleOpened_unlinks
  obtain ⟨path, -, later⟩ := refused "P0001" "unlinkProject" sampleArguments answer sampleClosed
    ⟨.unlinkProject, rfl, rfl⟩ hanswer
  obtain ⟨-, refuses⟩ := later sampleLater (.beside
    (.beside (.call .start _ _ (sampleClosed_looks path)) (beside_holdWorkers _))
    (beside_letWorkersGo _))
  refine ⟨opened, active _ opened, ?_⟩
  exact refuses "syncProject" sampleArguments (.syncProject "P0001") ⟨.syncProject, rfl, rfl⟩ rfl
    nofun

end Service

end HouseStyle
