import HouseStyle.Proofs.Portfolio.Contests

/-!
# Operations that lose races

Linking, unlinking, a rebase and a version of a sync are transactions that have written projects
and occurrences before they come to the aggregations. As long as attempts are left, each of them
ends as it would have without races, and when none is left for one signature, it fails as a whole
and leaves nothing of what it wrote before.
-/

namespace HouseStyle

variable {ε α β : Type}

namespace Portfolio

variable {portfolio after : Portfolio} {races : List (String × Nat)} {signature : String}
  {attempts : Nat} {now : Int}

/-! ## The register -/

lemma updateProject_aggregations {id : String} {change : ProjectRow → ProjectRow} {changed : Bool}
    (h : portfolio.updateProject id change = .ok (after, changed)) :
    after.aggregations = portfolio.aggregations := by
  simp only [updateProject, bind_eq_ok, pure_eq_ok] at h
  obtain ⟨_, -, h⟩ := h
  obtain ⟨rfl, -⟩ := Prod.mk.inj h
  rfl

lemma insertProject_aggregations {row : ProjectRow} (h : portfolio.insertProject row = .ok after) :
    after.aggregations = portfolio.aggregations := by
  simp only [insertProject, bind_eq_ok] at h
  obtain ⟨allowed, -, h⟩ := h
  split at h
  · split at h
    · rw [throw_bind] at h
      cases h
    · split at h
      · rw [throw_bind] at h
        cases h
      · obtain rfl := pure_eq_ok.mp h
        rfl
  · obtain rfl := pure_eq_ok.mp h
    rfl

/-- The register has no aggregations. -/
lemma register_aggregations {newId path id : String} {metadata : ProjectMetadata} {known : Bool}
    (h : portfolio.register newId path metadata now = .ok (after, id, known)) :
    after.aggregations = portfolio.aggregations := by
  simp only [register] at h
  split at h
  · simp only [relinkProject, bind_eq_ok, pure_eq_ok] at h
    obtain ⟨_, ⟨⟨_, _⟩, hupdate, rfl⟩, h⟩ := h
    obtain ⟨rfl, -⟩ := Prod.mk.inj h
    exact updateProject_aggregations hupdate
  · simp only [bind_eq_ok, pure_eq_ok] at h
    obtain ⟨_, hinsert, h⟩ := h
    obtain ⟨rfl, -⟩ := Prod.mk.inj h
    exact insertProject_aggregations hinsert

lemma Distinct.updated {id : String} {change : ProjectRow → ProjectRow} {changed : Bool}
    (distinct : portfolio.Distinct)
    (h : portfolio.updateProject id change = .ok (after, changed)) : after.Distinct := by
  rw [Distinct, updateProject_aggregations h]
  exact distinct

lemma Distinct.registered {newId path id : String} {metadata : ProjectMetadata} {known : Bool}
    (distinct : portfolio.Distinct)
    (h : portfolio.register newId path metadata now = .ok (after, id, known)) :
    after.Distinct := by
  rw [Distinct, register_aggregations h]
  exact distinct

theorem link_withRaces (distinct : portfolio.Distinct) (calm : portfolio.Calm)
    (few : ∀ k, losses races k < max attempts 1) (newId path : String)
    (metadata : ProjectMetadata) :
    (portfolio.withRaces races).link attempts now newId path metadata =
      relabel races <$> portfolio.link attempts now newId path metadata := by
  refine bind_relabelled (portfolio.register_withRaces newId path metadata now) fun mid hmid => ?_
  refine bind_relabelled (recompute_withRaces (distinct.registered hmid)
    (register_calm calm hmid) few) fun left _ => ?_
  have hfound : (left.1.withRaces races).getProject? mid.2.1 = left.1.getProject? mid.2.1 := rfl
  simp only [relabel, hfound]
  cases left.1.getProject? mid.2.1 <;> rfl

/-- A link for which attempts run out fails. -/
theorem link_fails {newId path id : String} {metadata : ProjectMetadata} {known : Bool}
    {count : Nat} (distinct : portfolio.Distinct) (calm : portfolio.Calm)
    (h : portfolio.register newId path metadata now = .ok (after, id, known))
    (rescores : after.Rescores attempts now signature) (spent : max attempts 1 ≤ count) :
    ∃ revision, (portfolio.losing signature count).link attempts now newId path metadata =
      .error (.versionConflict revision revision) := by
  have raced : (portfolio.losing signature count).register newId path metadata now =
      .ok (after.losing signature count, id, known) :=
    relabelled_ok (portfolio.register_withRaces newId path metadata now) h
  obtain ⟨revision, hlost⟩ :=
    rescores.fails (distinct.registered h) (register_calm calm h) spent
  refine ⟨revision, ?_⟩
  rw [link, raced]
  change (after.losing signature count).recompute attempts now >>= _ = _
  rw [hlost]
  rfl

lemma mapError_map {ε' : Type} (f : α → β) (g : ε → ε') (x : Except ε α) :
    (f <$> x).mapError g = f <$> x.mapError g := by
  cases x <;> rfl

theorem unlink_withRaces (distinct : portfolio.Distinct) (calm : portfolio.Calm)
    (few : ∀ k, losses races k < max attempts 1) (id : String) :
    (portfolio.withRaces races).unlink attempts now id =
      relabel races <$> portfolio.unlink attempts now id := by
  have hfound : (portfolio.withRaces races).getProject? id = portfolio.getProject? id := rfl
  unfold unlink
  rw [hfound]
  cases portfolio.getProject? id with
  | none => rfl
  | some row =>
    simp only
    split
    · rw [← mapError_map]
      congr 1
      refine bind_relabelled (portfolio.updateProject_withRaces id _) fun mid hmid => ?_
      exact bind_relabelled (recompute_withRaces (distinct.updated hmid)
        (updateProject_calm calm hmid) few) fun left _ => rfl
    · rfl

/-- An unlink for which attempts run out fails. -/
theorem unlink_fails {id : String} {row : ProjectRow} {changed : Bool} {count : Nat}
    (distinct : portfolio.Distinct) (calm : portfolio.Calm)
    (known : portfolio.getProject? id = some row) (active : row.isActive = true)
    (h : portfolio.deactivateProject id now = .ok (after, changed))
    (rescores : after.Rescores attempts now signature) (spent : max attempts 1 ≤ count) :
    ∃ revision, (portfolio.losing signature count).unlink attempts now id =
      .error (.storage (.versionConflict revision revision)) := by
  have raced : (portfolio.losing signature count).deactivateProject id now =
      .ok (after.losing signature count, changed) :=
    relabelled_ok (portfolio.updateProject_withRaces id _) h
  obtain ⟨revision, hlost⟩ :=
    rescores.fails (distinct.updated h) (updateProject_calm calm h) spent
  refine ⟨revision, ?_⟩
  have hfound : (portfolio.losing signature count).getProject? id = some row := known
  simp only [unlink, hfound, active, if_true, raced]
  change ((after.losing signature count).recompute attempts now >>= _).mapError _ = _
  rw [hlost]
  rfl

theorem rebase_withRaces (calm : portfolio.Calm) (few : ∀ k, losses races k < max attempts 1)
    (id : String) : (portfolio.withRaces races).rebase attempts now id =
      relabel races <$> portfolio.rebase attempts now id := by
  have hfound : (portfolio.withRaces races).getProject? id = portfolio.getProject? id := rfl
  unfold rebase
  rw [hfound]
  split
  · rfl
  · simp only
    rw [← mapError_map]
    congr 1
    refine bind_relabelled (portfolio.deleteOccurrences_withRaces _) fun mid hmid => ?_
    have calm' : mid.1.Calm := deleteOccurrences_calm calm hmid
    refine bind_relabelled (refreshAll_withRaces calm' fun k _ => few k) fun left _ => ?_
    exact bind_relabelled (left.resetCheckpoint_withRaces id now) fun _ _ => rfl

/-- A rebase for which attempts run out fails. -/
theorem rebase_fails {id : String} {signatures : List String} {count : Nat}
    (calm : portfolio.Calm) (known : (portfolio.getProject? id).isSome = true)
    (h : portfolio.deleteProjectOccurrences id = .ok (after, signatures))
    (renews : after.Renews attempts now signatures signature) (spent : max attempts 1 ≤ count) :
    ∃ revision, (portfolio.losing signature count).rebase attempts now id =
      .error (.storage (.versionConflict revision revision)) := by
  have raced : (portfolio.losing signature count).deleteProjectOccurrences id =
      .ok (after.losing signature count, signatures) :=
    relabelled_ok (portfolio.deleteOccurrences_withRaces _) h
  obtain ⟨revision, hlost⟩ :=
    renews.fails (deleteOccurrences_nodup h) (deleteOccurrences_calm calm h) spent
  refine ⟨revision, ?_⟩
  have hfound : ((portfolio.losing signature count).getProject? id).isNone = false := by
    rw [← Option.not_isSome]
    exact congrArg not known
  simp only [rebase, hfound, raced]
  change ((after.losing signature count).refreshAll attempts now signatures >>= _).mapError _ = _
  rw [hlost]
  rfl

/-! ## Reachable portfolios -/

/-- How a transaction meets races for the row of a signature. While attempts are left, it ends as
it does without them. When all are lost that a signature has of which it attempts a write, it fails
and leaves everything as it was. -/
structure Recovers (portfolio : Portfolio) (signature : String) (attempts count : Nat)
    (failure : StorageError → ε) (attempted : Prop)
    (operation : Portfolio → Except ε (Portfolio × α)) : Prop where
  retried : count < max attempts 1 →
    operation (portfolio.losing signature count) =
      relabel [(signature, count)] <$> operation portfolio
  failed : attempted → max attempts 1 ≤ count →
    (∃ revision, operation (portfolio.losing signature count) =
      .error (failure (.versionConflict revision revision))) ∧
    (portfolio.losing signature count).transact
        ((operation (portfolio.losing signature count)).map (·.1)) =
      portfolio.losing signature count

/-- An operation that is proved to fail leaves everything as it was. -/
lemma Recovers.of_fails {count : Nat} {failure : StorageError → ε} {attempted : Prop}
    {operation : Portfolio → Except ε (Portfolio × α)}
    (retried : count < max attempts 1 → operation (portfolio.losing signature count) =
      relabel [(signature, count)] <$> operation portfolio)
    (fails : attempted → max attempts 1 ≤ count → ∃ revision,
      operation (portfolio.losing signature count) =
        .error (failure (.versionConflict revision revision))) :
    portfolio.Recovers signature attempts count failure attempted operation := by
  refine ⟨retried, fun h spent => ⟨fails h spent, ?_⟩⟩
  obtain ⟨revision, hfails⟩ := fails h spent
  rw [hfails]
  rfl

/-- Refreshes and turns, whatever portfolio an operation has come to. Other writers win the first
`count` races for the row of a signature. -/
structure Retries (signature : String) (attempts count : Nat) (now : Int) : Prop where
  refreshed : ∀ portfolio : Portfolio, portfolio.Calm → ∀ text,
    portfolio.Contested signature text →
      (portfolio.losing signature count).refresh signature text attempts now =
        if count < max attempts 1 then
          (fun ending => (ending.1.losing signature count, ending.2.1, count)) <$>
            portfolio.refresh signature text attempts now
        else .error (portfolio.conflict signature)
  turned : ∀ portfolio : Portfolio, portfolio.Calm → ∀ row active, row.signature = signature →
    portfolio.getAggregation? signature = some row →
    sameConsensus (consensus (portfolio.activeCountFor signature) active) row.consensusScore =
      false →
      (portfolio.losing signature count).turn row active attempts now =
        if count < max attempts 1 then
          relabel [(signature, count)] <$> portfolio.turn row active attempts now
        else .error (portfolio.conflict signature)

lemma retries (signature : String) (attempts count : Nat) (now : Int) :
    Retries signature attempts count now where
  refreshed := fun portfolio calm text contested => by
    rw [losing, refresh_contested contested, losses_single, if_pos rfl, calm]
    rfl
  turned := fun portfolio calm row active own known different => by
    subst own
    rw [losing, turn_contended known different, losses_single, if_pos rfl, calm]

/-- The operations on a portfolio, when other writers win the first `count` races for the row of a
signature. -/
structure Withstands (portfolio : Portfolio) (signature : String) (attempts count : Nat)
    (now : Int) : Prop where
  read : ∀ row ∈ portfolio.snapshot, portfolio.getAggregation? row.signature = some row
  linked : ∀ newId path metadata, portfolio.Recovers signature attempts count id
    (∃ mid own known, portfolio.register newId path metadata now = .ok (mid, own, known) ∧
      mid.Rescores attempts now signature)
    (·.link attempts now newId path metadata)
  unlinked : ∀ id, portfolio.Recovers signature attempts count .storage
    (∃ row mid changed, portfolio.getProject? id = some row ∧ row.isActive = true ∧
      portfolio.deactivateProject id now = .ok (mid, changed) ∧
      mid.Rescores attempts now signature)
    (·.unlink attempts now id)
  rebased : ∀ id, portfolio.Recovers signature attempts count .storage
    (∃ mid signatures, (portfolio.getProject? id).isSome = true ∧
      portfolio.deleteProjectOccurrences id = .ok (mid, signatures) ∧
      mid.Renews attempts now signatures signature)
    (·.rebase attempts now id)
  synced : ∀ contest : Contest, contest.signature = signature → contest.count = count →
    ∀ projectId checkpoint counts before rest,
      (count < max attempts 1 →
        contest.applyAmong projectId attempts now ⟨portfolio, checkpoint, counts⟩ before rest =
          applyVersions projectId attempts now ⟨portfolio, checkpoint, counts⟩
            (before ++ contest.group :: rest)) ∧
      ∀ reached mid counts', max attempts 1 ≤ count →
        applyVersions projectId attempts now ⟨portfolio, checkpoint, counts⟩ before =
          (reached, none) →
        applyChanges projectId attempts now (reached.portfolio, .zero) contest.first =
          .ok (mid, counts') →
        mid.Contests projectId attempts now signature contest.change →
          ∃ revision, contest.applyAmong projectId attempts now ⟨portfolio, checkpoint, counts⟩
            before rest = (reached, some (.versionConflict revision revision))

theorem withstands (distinct : portfolio.Distinct) (calm : portfolio.Calm) (signature : String)
    (attempts count : Nat) (now : Int) :
    portfolio.Withstands signature attempts count now where
  read := (inTurn_snapshot distinct).known
  linked := fun newId path metadata => .of_fails
    (fun room => link_withRaces distinct calm (losses_few room signature) newId path metadata)
    fun ⟨_, _, _, h, rescores⟩ spent => link_fails distinct calm h rescores spent
  unlinked := fun id => .of_fails
    (fun room => unlink_withRaces distinct calm (losses_few room signature) id)
    fun ⟨_, _, _, known, active, h, rescores⟩ spent =>
      unlink_fails distinct calm known active h rescores spent
  rebased := fun id => .of_fails
    (fun room => rebase_withRaces calm (losses_few room signature) id)
    fun ⟨_, _, known, h, renews⟩ spent => rebase_fails calm known h renews spent
  synced := by
    rintro contest rfl rfl projectId checkpoint counts before rest
    exact ⟨fun room => Contest.applyAmong_eq calm room before rest,
      fun reached mid counts' spent hbefore h contests =>
        Contest.applyAmong_fails calm hbefore h contests spent rest⟩

/-- Whatever was asked of a portfolio before: races that are lost are run again, and when no
attempt is left, nothing comes of the operation that lost them. -/
theorem run_withstands (calls : List PortfolioCall) (blocks : List WriteBlock)
    (signature : String) (attempts count : Nat) (now : Int) :
    Retries signature attempts count now ∧
      ((empty.run calls).under ⟨blocks, []⟩).Withstands signature attempts count now := by
  have consistent := consistent_empty.run calls
  exact ⟨retries signature attempts count now,
    withstands (consistent.under ⟨blocks, []⟩).distinct rfl signature attempts count now⟩

/-! A project whose only occurrence is taken back. -/

def sampleSynced : List PortfolioCall :=
  [.link "a" "/a" .unset, .sync "a" ((Workspace.empty.run Workspace.sampleCalls).stores "a")].map
    fun request => ⟨request, 3, 0, .none, Faults.honest_none⟩

def samplePortfolio : Portfolio := (empty.run sampleSynced).under ⟨[], []⟩

/-- What has to be looked at of a rebase before it comes to its refreshes. -/
def sampleTaken : Bool × Option (List String × Bool × Bool) :=
  ((samplePortfolio.getProject? "a").isSome,
    (samplePortfolio.deleteProjectOccurrences "a").toOption.map fun taken =>
      (taken.2, (taken.1.occurrencesFor "style:quotes:single").isEmpty,
        (taken.1.getAggregation? "style:quotes:single").isSome))

lemma sampleTaken_eq : sampleTaken = (true, some (["style:quotes:single"], true, true)) := by
  decide +kernel

lemma samplePortfolio_renews : ∃ mid signatures,
    (samplePortfolio.getProject? "a").isSome = true ∧
      samplePortfolio.deleteProjectOccurrences "a" = .ok (mid, signatures) ∧
      mid.Renews 3 0 signatures "style:quotes:single" := by
  obtain ⟨known, taken⟩ := Prod.mk.inj sampleTaken_eq
  cases h : samplePortfolio.deleteProjectOccurrences "a" with
  | error error =>
    rw [h] at taken
    cases taken
  | ok result =>
    obtain ⟨mid, signatures⟩ := result
    rw [h] at taken
    have hrows := Option.some.inj taken
    simp only [Prod.mk.injEq, List.isEmpty_iff] at hrows
    obtain ⟨rfl, nothing, hrow⟩ := hrows
    obtain ⟨row, hrow⟩ := Option.isSome_iff_exists.mp hrow
    exact ⟨mid, _, known, rfl, .reached [] [] mid rfl rfl (.deletes row nothing hrow)⟩

theorem samplePortfolio_withstands :
    (samplePortfolio.losing "style:quotes:single" 2).rebase 3 0 "a" =
      relabel [("style:quotes:single", 2)] <$> samplePortfolio.rebase 3 0 "a" ∧
    (∃ revision, (samplePortfolio.losing "style:quotes:single" 3).rebase 3 0 "a" =
      .error (.storage (.versionConflict revision revision))) ∧
    (samplePortfolio.losing "style:quotes:single" 3).transact
        (((samplePortfolio.losing "style:quotes:single" 3).rebase 3 0 "a").map (·.1)) =
      samplePortfolio.losing "style:quotes:single" 3 := by
  have room := run_withstands sampleSynced [] "style:quotes:single" 3 2 0
  have spent := run_withstands sampleSynced [] "style:quotes:single" 3 3 0
  exact ⟨(room.2.rebased "a").retried (by decide),
    (spent.2.rebased "a").failed samplePortfolio_renews (by decide)⟩

end Portfolio

end HouseStyle
