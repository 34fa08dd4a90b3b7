import HouseStyle.Portfolio.Register
import HouseStyle.Portfolio.Sync
import HouseStyle.Proofs.Store.Lookup

/-!
# What a write does to the portfolio

Refreshing aggregations leaves projects and occurrences alone, whatever races are lost on the
way. Of all other writes there is one lemma each that says which rows are there afterwards.
-/

namespace HouseStyle

namespace Portfolio

variable {portfolio after : Portfolio}

/-! ## Aggregations -/

/-- Nothing but aggregations may have been written. -/
def Refreshed (portfolio after : Portfolio) : Prop :=
  ∃ aggregations, after = { portfolio with aggregations }

lemma Refreshed.refl (portfolio : Portfolio) : portfolio.Refreshed portfolio := ⟨_, rfl⟩

lemma Refreshed.trans {mid : Portfolio} (first : portfolio.Refreshed mid)
    (second : mid.Refreshed after) : portfolio.Refreshed after := by
  obtain ⟨_, rfl⟩ := first
  obtain ⟨_, rfl⟩ := second
  exact ⟨_, rfl⟩

/-- The consensus that an aggregation should have. -/
def scoreFor (portfolio : Portfolio) (signature : String) : Float :=
  consensus (portfolio.activeCountFor signature) portfolio.countActive

/-- What a conditional write comes to: one that is lost leaves everything as it was. -/
structure Contended (portfolio after : Portfolio) (won : Bool) (effect : Prop) : Prop where
  lost : won = false → after = portfolio
  done : won = true → effect

lemma Contended.lose {effect : Prop} : Contended portfolio portfolio false effect :=
  ⟨fun _ => rfl, nofun⟩

lemma Contended.win {effect : Prop} (h : effect) : Contended portfolio after true effect :=
  ⟨nofun, fun _ => h⟩

lemma insertAggregation_ok {row : AggregationRow} {won : Bool}
    (h : portfolio.insertAggregation row = .ok (after, won)) :
    Contended portfolio after won (row.aggregatedConfidence.isNaN = false ∧
      row.consensusScore.isNaN = false ∧ after = { portfolio with
        aggregations := portfolio.aggregations ++ [storedAggregation row] }) := by
  simp only [insertAggregation, bind_eq_ok] at h
  obtain ⟨allowed, -, h⟩ := h
  split at h
  · split at h
    · obtain ⟨rfl, rfl⟩ := Prod.mk.inj (pure_eq_ok.mp h)
      exact .lose
    · next hkept =>
      obtain ⟨rfl, rfl⟩ := Prod.mk.inj (pure_eq_ok.mp h)
      rw [Bool.not_eq_true, Bool.or_eq_false_iff, Bool.or_eq_false_iff] at hkept
      exact .win ⟨hkept.1.1, hkept.1.2, rfl⟩
  · obtain ⟨rfl, rfl⟩ := Prod.mk.inj (pure_eq_ok.mp h)
    exact .lose

/-- The portfolio with the aggregation of a signature replaced. -/
def withAggregation (portfolio : Portfolio) (signature : String) (row : AggregationRow) :
    Portfolio :=
  { portfolio with
    aggregations := portfolio.aggregations.map fun old =>
      if old.signature == signature then row else old }

/-- A write that goes through after two checks, and none where writes are dropped. -/
lemma checked_ok {allows : Except StorageError Bool} {successor : Except StorageError Unit}
    {signature : String} {row : AggregationRow} {won : Bool}
    (h : (allows >>= fun allowed =>
      if allowed = true then
        requireNumbers row >>= fun _ => successor >>= fun _ =>
          pure (portfolio.withAggregation signature (storedAggregation row), true)
      else pure (portfolio, false)) = .ok (after, won)) :
    Contended portfolio after won (row.aggregatedConfidence.isNaN = false ∧
      row.consensusScore.isNaN = false ∧
      after = portfolio.withAggregation signature (storedAggregation row)) := by
  obtain ⟨allowed, -, h⟩ := bind_eq_ok.mp h
  split at h
  · simp only [bind_eq_ok, pure_eq_ok, requireNumbers] at h
    obtain ⟨⟨⟩, ⟨⟨⟩, hconfidence, hscore⟩, -, -, h⟩ := h
    obtain ⟨rfl, rfl⟩ := Prod.mk.inj h
    exact .win ⟨Table.requireNumber_ok hconfidence, Table.requireNumber_ok hscore, rfl⟩
  · obtain ⟨rfl, rfl⟩ := Prod.mk.inj (pure_eq_ok.mp h)
    exact .lose

lemma updateAggregationIf_ok {signature : String} {expected : Int}
    {change : AggregationRow → AggregationRow} {won : Bool}
    (h : portfolio.updateAggregationIf signature expected change = .ok (after, won)) :
    Contended portfolio after won (∃ old ∈ portfolio.aggregations, old.signature = signature ∧
      (change old).aggregatedConfidence.isNaN = false ∧
      (change old).consensusScore.isNaN = false ∧ after = portfolio.withAggregation signature
        (storedAggregation { change old with revision := expected + 1 })) := by
  simp only [updateAggregationIf] at h
  split at h
  · next old hfound =>
    have hfits := List.find?_some hfound
    rw [Bool.and_eq_true] at hfits
    have hchecked : Contended portfolio after won
        ((change old).aggregatedConfidence.isNaN = false ∧
        (change old).consensusScore.isNaN = false ∧ after = portfolio.withAggregation signature
          (storedAggregation { change old with revision := expected + 1 })) := by
      split at h
      · obtain ⟨⟨⟩, -, h⟩ := bind_eq_ok.mp h
        exact checked_ok h
      · exact checked_ok h
    exact ⟨hchecked.lost, fun hwon => ⟨old, List.mem_of_find?_eq_some hfound,
      beq_iff_eq.mp hfits.1, hchecked.done hwon⟩⟩
  · obtain ⟨rfl, rfl⟩ := Prod.mk.inj (pure_eq_ok.mp h)
    exact .lose

lemma casDelete_ok {signature : String} {expected : Int} {won : Bool}
    (h : portfolio.casDelete signature expected = .ok (after, won)) :
    Contended portfolio after won (after = { portfolio with
      aggregations := portfolio.aggregations.filter fun row =>
        !(row.signature == signature && row.revision == expected) }) := by
  simp only [casDelete, Table.deleteWhere, bind_eq_ok, pure_eq_ok] at h
  obtain ⟨⟨aggregations, count⟩, hdelete, h⟩ := h
  obtain ⟨rfl, rfl⟩ := Prod.mk.inj h
  split at hdelete
  · obtain ⟨rfl, rfl⟩ := Prod.mk.inj (pure_eq_ok.mp hdelete)
    exact .lose
  · next hcount =>
    obtain ⟨allowed, -, hdelete⟩ := bind_eq_ok.mp hdelete
    split at hdelete
    · obtain ⟨rfl, rfl⟩ := Prod.mk.inj (pure_eq_ok.mp hdelete)
      rw [bne_iff_ne.mpr hcount]
      exact .win rfl
    · obtain ⟨rfl, rfl⟩ := Prod.mk.inj (pure_eq_ok.mp hdelete)
      exact .lose

lemma racing_ok {signature : String} {attempt : Nat}
    {write : Portfolio → Except StorageError (Portfolio × Bool)} {won : Bool} {effect : Prop}
    (hwrite : write portfolio = .ok (after, won) → Contended portfolio after won effect)
    (h : portfolio.racing signature attempt write = .ok (after, won)) :
    Contended portfolio after won effect := by
  unfold racing at h
  split at h
  · obtain ⟨rfl, rfl⟩ := Prod.mk.inj (Except.ok.inj h)
    exact .lose
  · exact hwrite h

/-! ### Refreshing a signature -/

/-- All that an attempt which ends can have done to the aggregation of a signature. -/
inductive Renewed (portfolio : Portfolio) (signature : String) (text : Option RuleText)
    (now : Int) : Portfolio → Prop where
  | absent (nothing : portfolio.occurrencesFor signature = [])
      (unknown : portfolio.getAggregation? signature = none) :
      Renewed portfolio signature text now portfolio
  | deleted (current : AggregationRow) (nothing : portfolio.occurrencesFor signature = [])
      (known : portfolio.getAggregation? signature = some current) :
      Renewed portfolio signature text now { portfolio with
        aggregations := portfolio.aggregations.filter fun row =>
          !(row.signature == signature && row.revision == current.revision) }
  | updated (current old : AggregationRow) (occurrences : List Occurrence) (description : String)
      (createdAt revision : Int) (something : portfolio.occurrencesFor signature ≠ [])
      (known : portfolio.getAggregation? signature = some current)
      (replaced : old ∈ portfolio.aggregations) (own : old.signature = signature)
      (read : (portfolio.occurrencesFor signature).mapM Occurrence.ofRow = .ok occurrences)
      (number : (portfolio.scoreFor signature).isNaN = false)
      (sure : (weightedConfidence occurrences).isNaN = false) :
      Renewed portfolio signature text now (portfolio.withAggregation signature
        (storedAggregation { portfolio.aggregate signature ⟨old.category, description⟩ occurrences
          createdAt now with revision }))
  | inserted (occurrences : List Occurrence) (told : RuleText) (given : text = some told)
      (something : portfolio.occurrencesFor signature ≠ [])
      (unknown : portfolio.getAggregation? signature = none)
      (read : (portfolio.occurrencesFor signature).mapM Occurrence.ofRow = .ok occurrences)
      (number : (portfolio.scoreFor signature).isNaN = false)
      (sure : (weightedConfidence occurrences).isNaN = false) :
      Renewed portfolio signature text now { portfolio with
        aggregations := portfolio.aggregations ++
          [storedAggregation (portfolio.aggregate signature told occurrences now now)] }
  | untold (something : portfolio.occurrencesFor signature ≠ [])
      (unknown : portfolio.getAggregation? signature = none) (nothingTold : text = none) :
      Renewed portfolio signature text now portfolio

/-- An attempt that is lost leaves everything as it was. -/
def Attempt.Goes (portfolio : Portfolio) (signature : String) (text : Option RuleText)
    (now : Int) : Attempt → Prop
  | .done left _ => portfolio.Renewed signature text now left
  | .lost left _ => left = portfolio

/-- The end of an attempt, after a write that a race may have taken the effect of. -/
lemma ended_ok {signature : String} {text : Option RuleText} {now : Int} {attempt : Nat}
    {write : Portfolio → Except StorageError (Portfolio × Bool)} {result : RefreshOutcome}
    {revision : Option Int} {outcome : Attempt}
    (hwrite : ∀ written won, write portfolio = .ok (written, won) →
      Contended portfolio written won (portfolio.Renewed signature text now written))
    (h : (portfolio.racing signature attempt write >>= fun x =>
      pure (if x.2 = true then Attempt.done x.1 result else Attempt.lost x.1 revision)) =
        .ok outcome) : outcome.Goes portfolio signature text now := by
  obtain ⟨⟨written, won⟩, hracing, hend⟩ := bind_eq_ok.mp h
  have contended := racing_ok (hwrite written won) hracing
  rw [← pure_eq_ok.mp hend]
  cases won with
  | true => exact contended.done rfl
  | false => exact contended.lost rfl

lemma attemptRefresh_ok {signature : String} {text : Option RuleText} {attempt : Nat}
    {now : Int} {outcome : Attempt}
    (h : portfolio.attemptRefresh signature text attempt now = .ok outcome) :
    outcome.Goes portfolio signature text now := by
  unfold attemptRefresh at h
  simp only at h
  split at h
  · next hnothing =>
    have nothing := List.isEmpty_iff.mp hnothing
    split at h
    · next unknown =>
      rw [← pure_eq_ok.mp h]
      exact .absent nothing unknown
    · next current known =>
      refine ended_ok (fun written won hwrite => ?_) h
      have contended := casDelete_ok hwrite
      refine ⟨contended.lost, fun hwon => ?_⟩
      rw [contended.done hwon]
      exact .deleted current nothing known
  · next hsomething =>
    have something : portfolio.occurrencesFor signature ≠ [] :=
      fun hnothing => hsomething (List.isEmpty_iff.mpr hnothing)
    obtain ⟨occurrences, read, h⟩ := bind_eq_ok.mp h
    split at h
    · next current known _ =>
      refine ended_ok (fun written won hwrite => ?_) h
      have contended := updateAggregationIf_ok hwrite
      refine ⟨contended.lost, fun hwon => ?_⟩
      obtain ⟨old, replaced, own, sure, number, hwritten⟩ := contended.done hwon
      rw [hwritten]
      exact .updated current old occurrences _ old.createdAt (current.revision + 1) something known
        replaced own read number sure
    · next told unknown _ =>
      refine ended_ok (fun written won hwrite => ?_) h
      have contended := insertAggregation_ok hwrite
      refine ⟨contended.lost, fun hwon => ?_⟩
      obtain ⟨sure, number, hwritten⟩ := contended.done hwon
      rw [hwritten]
      exact .inserted occurrences told rfl something unknown read number sure
    · next unknown _ =>
      rw [← pure_eq_ok.mp h]
      exact .untold something unknown rfl

lemma refreshFrom_ok {signature : String} {text : Option RuleText} {now lastRevision : Int}
    {attempt left lost : Nat} {outcome : RefreshOutcome}
    (h : refreshFrom signature text now lastRevision attempt left portfolio =
      .ok (after, outcome, lost)) : portfolio.Renewed signature text now after := by
  induction left generalizing lastRevision attempt with
  | zero => cases h
  | succ left ih =>
    obtain ⟨first, hfirst, h⟩ := bind_eq_ok.mp h
    have goes := attemptRefresh_ok hfirst
    cases first with
    | done written result =>
      obtain ⟨rfl, -⟩ := Prod.mk.inj (pure_eq_ok.mp h)
      exact goes
    | lost written revision =>
      rw [show written = portfolio from goes] at h
      exact ih h

lemma refresh_ok {signature : String} {text : Option RuleText} {attempts lost : Nat}
    {now : Int} {outcome : RefreshOutcome}
    (h : portfolio.refresh signature text attempts now = .ok (after, outcome, lost)) :
    portfolio.Renewed signature text now after :=
  refreshFrom_ok h

lemma Renewed.refreshed {signature : String} {text : Option RuleText} {now : Int}
    (renewed : portfolio.Renewed signature text now after) : portfolio.Refreshed after := by
  cases renewed <;> exact ⟨_, rfl⟩

/-- Signatures renewed one after another, each with what is told of it. -/
inductive RenewedAll (now : Int) :
    List (String × Option RuleText) → Portfolio → Portfolio → Prop where
  | nil (portfolio : Portfolio) : RenewedAll now [] portfolio portfolio
  | cons {signature : String} {text : Option RuleText} {rest : List (String × Option RuleText)}
      {portfolio mid after : Portfolio} (first : portfolio.Renewed signature text now mid)
      (others : RenewedAll now rest mid after) :
      RenewedAll now ((signature, text) :: rest) portfolio after

lemma RenewedAll.refreshed {now : Int} {renewals : List (String × Option RuleText)}
    (renewed : RenewedAll now renewals portfolio after) : portfolio.Refreshed after := by
  induction renewed with
  | nil => exact .refl _
  | cons first _ ih => exact first.refreshed.trans ih

lemma refreshAll_ok {attempts : Nat} {now : Int} {signatures : List String}
    (h : portfolio.refreshAll attempts now signatures = .ok after) :
    RenewedAll now (signatures.map (·, none)) portfolio after := by
  unfold refreshAll at h
  induction signatures generalizing portfolio with
  | nil =>
    obtain rfl := pure_eq_ok.mp h
    exact .nil _
  | cons signature signatures ih =>
    simp only [List.foldlM_cons, bind_eq_ok, pure_eq_ok] at h
    obtain ⟨_, ⟨⟨mid, outcome, lost⟩, hfirst, rfl⟩, hrest⟩ := h
    exact .cons (refresh_ok hfirst) (ih hrest)

/-! ### The consensus of a signature -/

/-- All that bringing a consensus up to date can have done: the score that was last read may
stay, or the one that is wanted is written. -/
inductive Rescored (portfolio : Portfolio) (signature : String) (score wanted : Float)
    (now : Int) : Portfolio → Prop where
  | kept (same : ∀ row, portfolio.getAggregation? signature = some row →
      row.consensusScore = score → sameConsensus wanted row.consensusScore = true) :
      Rescored portfolio signature score wanted now portfolio
  | written (old : AggregationRow) (revision : Int) (known : old ∈ portfolio.aggregations)
      (own : old.signature = signature) (number : wanted.isNaN = false) :
      Rescored portfolio signature score wanted now (portfolio.withAggregation signature
        (storedAggregation
          { old with consensusScore := wanted, updatedAt := now, revision }))

/-- One try at a consensus: it ends, or it is made again with the row as it is. -/
lemma recomputeFrom_cases {signature : String} {active : Nat} {now revision : Int}
    {score : Float} {attempt left : Nat} {wrote : Bool}
    (h : recomputeFrom signature active now score revision attempt left portfolio =
      .ok (after, wrote)) :
    portfolio.Rescored signature score (consensus (portfolio.activeCountFor signature) active)
      now after ∨
    ∃ row rest, left = rest + 1 ∧ portfolio.getAggregation? signature = some row ∧
      recomputeFrom signature active now row.consensusScore row.revision (attempt + 1) rest
        portfolio = .ok (after, wrote) := by
  unfold recomputeFrom at h
  simp only at h
  split at h
  · next hsame =>
    obtain ⟨rfl, -⟩ := Prod.mk.inj (pure_eq_ok.mp h)
    exact .inl (.kept fun row _ hscore => hscore ▸ hsame)
  · obtain ⟨⟨mid, won⟩, hfirst, h⟩ := bind_eq_ok.mp h
    have contended := racing_ok updateAggregationIf_ok hfirst
    simp only at h
    split at h
    · next hwon =>
      obtain ⟨rfl, -⟩ := Prod.mk.inj (pure_eq_ok.mp h)
      obtain ⟨old, known, own, -, number, hwritten⟩ := contended.done hwon
      rw [hwritten]
      exact .inl (.written old _ known own number)
    · next hlost =>
      rw [contended.lost (Bool.eq_false_iff.mpr hlost)] at h
      cases hrow : portfolio.getAggregation? signature with
      | none =>
        rw [hrow] at h
        obtain ⟨rfl, -⟩ := Prod.mk.inj (pure_eq_ok.mp h)
        exact .inl (.kept fun row hknown => absurd (hrow.symm.trans hknown) nofun)
      | some row =>
        rw [hrow] at h
        cases left with
        | zero => cases h
        | succ rest => exact .inr ⟨row, rest, rfl, rfl, h⟩

lemma recomputeFrom_ok {signature : String} {active : Nat} {now revision : Int}
    {score : Float} {attempt left : Nat} {wrote : Bool}
    (h : recomputeFrom signature active now score revision attempt left portfolio =
      .ok (after, wrote)) :
    portfolio.Rescored signature score (consensus (portfolio.activeCountFor signature) active)
      now after := by
  induction left generalizing score revision attempt with
  | zero =>
    rcases recomputeFrom_cases h with ended | ⟨_, _, hleft, -⟩
    · exact ended
    · cases hleft
  | succ left ih =>
    rcases recomputeFrom_cases h with ended | ⟨row, rest, hleft, hrow, hagain⟩
    · exact ended
    · obtain rfl : left = rest := Nat.succ.inj hleft
      cases ih hagain with
      | kept same =>
        refine .kept fun row' hrow' _ => same row' hrow' ?_
        rw [Option.some.inj (hrow'.symm.trans hrow)]
      | written old revision known own number => exact .written old revision known own number

lemma Rescored.refreshed {signature : String} {score wanted : Float} {now : Int}
    (rescored : portfolio.Rescored signature score wanted now after) :
    portfolio.Refreshed after := by
  cases rescored <;> exact ⟨_, rfl⟩

lemma recomputeRows_refreshed {active attempts : Nat} {now : Int} {rows : List AggregationRow} :
    portfolio.Refreshed (recomputeRows active attempts now rows portfolio).2 := by
  induction rows generalizing portfolio with
  | nil => exact .refl _
  | cons row rows ih =>
    unfold recomputeRows
    split
    · exact .refl _
    · next mid wrote hfirst => exact (recomputeFrom_ok hfirst).refreshed.trans ih

lemma recompute_refreshed {attempts changed : Nat} {now : Int}
    (h : portfolio.recompute attempts now = .ok (after, changed)) : portfolio.Refreshed after := by
  unfold recompute at h
  have hleft : portfolio.Refreshed (portfolio.recomputeEach attempts now).2 :=
    recomputeRows_refreshed
  cases hresult : (portfolio.recomputeEach attempts now).1 with
  | error error => simp [hresult, Except.map] at h
  | ok count =>
    obtain ⟨rfl, -⟩ := by simpa [hresult, Except.map] using h
    exact hleft

/-! ## Projects -/

/-- A project's row with its checkpoint moved on. -/
def advanced (version now : Int) (row : ProjectRow) : ProjectRow :=
  { row with lastSyncedVersion := max row.lastSyncedVersion version, lastSyncedAt := some now }

lemma advanced_id (version now : Int) (row : ProjectRow) : (advanced version now row).id = row.id :=
  rfl

lemma advanced_isActive (version now : Int) (row : ProjectRow) :
    (advanced version now row).isActive = row.isActive := rfl

/-- The row of a project that starts over. -/
def restarted (now : Int) (row : ProjectRow) : ProjectRow :=
  { row with lastSyncedVersion := 0, lastSyncedAt := some now }

/-- A row that is made active again. -/
def relinked (name : String) (language : Option String) (frameworks : String) (row : ProjectRow) :
    ProjectRow :=
  { row with name, primaryLanguage := language, frameworks, isActive := true, unlinkedAt := none }

/-- A row that is made inactive. -/
def unlinked (now : Int) (row : ProjectRow) : ProjectRow :=
  { row with
    isActive := false
    unlinkedAt := if row.isActive then some now else row.unlinkedAt }

/-- A row with other statistics. -/
def counted (patterns concepts : Int) (row : ProjectRow) : ProjectRow :=
  { row with patternCount := patterns, conceptCount := concepts }

/-- The portfolio with the row of a project changed. -/
def withProject (portfolio : Portfolio) (id : String) (change : ProjectRow → ProjectRow) :
    Portfolio :=
  { portfolio with
    projects := portfolio.projects.map fun row => if row.id == id then change row else row }

lemma updateProject_ok {id : String} {change : ProjectRow → ProjectRow} {changed : Bool}
    (h : portfolio.updateProject id change = .ok (after, changed))
    (honest : portfolio.faults.Honest) :
    after = portfolio.withProject id change := by
  simp only [updateProject, bind_eq_ok, pure_eq_ok] at h
  obtain ⟨⟨projects, count⟩, hupdate, h⟩ := h
  obtain rfl := (Table.updateWhere_ok honest hupdate).1
  exact (Prod.mk.inj h).1.symm

lemma relinkProject_ok {id name frameworks : String} {language : Option String}
    (h : portfolio.relinkProject id name language frameworks = .ok after)
    (honest : portfolio.faults.Honest) :
    after = portfolio.withProject id (relinked name language frameworks) := by
  simp only [relinkProject, bind_eq_ok, pure_eq_ok] at h
  obtain ⟨⟨_, _⟩, hupdate, rfl⟩ := h
  exact updateProject_ok hupdate honest

lemma updateStats_ok {id : String} {patterns concepts : Int}
    (h : portfolio.updateStats id patterns concepts = .ok after)
    (honest : portfolio.faults.Honest) :
    after = portfolio.withProject id (counted patterns concepts) := by
  simp only [updateStats, bind_eq_ok, pure_eq_ok] at h
  obtain ⟨⟨_, _⟩, hupdate, rfl⟩ := h
  exact updateProject_ok hupdate honest

lemma advanceCheckpoint_ok {id : String} {version now : Int}
    (h : portfolio.advanceCheckpoint id version now = .ok after)
    (honest : portfolio.faults.Honest) :
    after = portfolio.withProject id (advanced version now) := by
  simp only [advanceCheckpoint, bind_eq_ok, pure_eq_ok] at h
  obtain ⟨⟨_, _⟩, hupdate, rfl⟩ := h
  exact updateProject_ok hupdate honest

lemma resetCheckpoint_ok {id : String} {now : Int}
    (h : portfolio.resetCheckpoint id now = .ok after)
    (honest : portfolio.faults.Honest) :
    after = portfolio.withProject id (restarted now) := by
  simp only [resetCheckpoint, bind_eq_ok, pure_eq_ok] at h
  obtain ⟨⟨_, _⟩, hupdate, rfl⟩ := h
  exact updateProject_ok hupdate honest

lemma insertProject_ok {row : ProjectRow}
    (h : portfolio.insertProject row = .ok after)
    (honest : portfolio.faults.Honest) :
    (∀ r ∈ portfolio.projects, r.id ≠ row.id) ∧
      after = { portfolio with projects := portfolio.projects ++ [row] } := by
  simp only [insertProject, bind_eq_ok] at h
  obtain ⟨allowed, ha, h⟩ := h
  rw [honest.allows ha, if_pos rfl] at h
  by_cases hpath : (portfolio.projects.any (·.path == row.path)) = true
  · rw [if_pos hpath, throw_bind] at h
    cases h
  rw [if_neg hpath] at h
  by_cases hid : (portfolio.projects.any (·.id == row.id)) = true
  · rw [if_pos hid, throw_bind] at h
    cases h
  rw [if_neg hid] at h
  refine ⟨fun r hr heq => hid (List.any_eq_true.mpr ⟨r, hr, beq_iff_eq.mpr heq⟩), ?_⟩
  exact (pure_eq_ok.mp h).symm

/-! ## Occurrences -/

lemma sameOccurrence_iff {a b : OccurrenceRow} : sameOccurrence a b = true ↔
    a.signature = b.signature ∧ a.projectId = b.projectId ∧ a.patternId = b.patternId := by
  simp [sameOccurrence, and_assoc]

/-- The occurrences after one was written. -/
def putOccurrence (rows : List OccurrenceRow) (row : OccurrenceRow) : List OccurrenceRow :=
  Table.put rows sameOccurrence (fun _ new => new)
    { row with confidence := Decimal.unsignedZero row.confidence }

lemma upsertOccurrence_ok {row : OccurrenceRow} {existed : Bool}
    (h : portfolio.upsertOccurrence row = .ok (after, existed))
    (honest : portfolio.faults.Honest) :
    after = { portfolio with occurrences := putOccurrence portfolio.occurrences row } := by
  simp only [upsertOccurrence, bind_eq_ok] at h
  obtain ⟨allowed, ha, h⟩ := h
  rw [honest.allows ha, if_pos rfl] at h
  simp only [bind_eq_ok, pure_eq_ok] at h
  obtain ⟨⟨⟩, -, occurrences, hupsert, h⟩ := h
  obtain rfl := Table.upsert_ok honest hupsert
  exact (Prod.mk.inj h).1.symm

/-- All signatures are renewed of which occurrences were written or deleted. Of one that only
lost some nothing needs to be told. -/
structure Covers (renewals : List (String × Option RuleText)) (before after : List OccurrenceRow) :
    Prop where
  others : ∀ k, k ∉ renewals.map (·.1) →
    after.filter (·.signature == k) = before.filter (·.signature == k)
  known : ∀ r ∈ renewals, r.2 = none →
    after.filter (·.signature == r.1) ≠ [] → before.filter (·.signature == r.1) ≠ []

/-- What is told of a rule has the category of a content with that signature. -/
def Named (renewals : List (String × Option RuleText)) : Prop :=
  ∀ r ∈ renewals, ∀ told, r.2 = some told →
    ∃ content : PatternContent, content.signature = r.1 ∧ told.category = content.category.name

lemma named_untold (signatures : List String) : Named (signatures.map (·, none)) := by
  intro r hr told htold
  obtain ⟨signature, -, rfl⟩ := List.mem_map.mp hr
  cases htold

lemma deleteOccurrences_ok {fits : OccurrenceRow → Bool} {signatures : List String}
    (h : portfolio.deleteOccurrences fits = .ok (after, signatures))
    (honest : portfolio.faults.Honest) :
    after = { portfolio with
      occurrences := portfolio.occurrences.filter fun row => !fits row } ∧
    Covers (signatures.map (·, none)) portfolio.occurrences
      (portfolio.occurrences.filter fun row => !fits row) := by
  simp only [deleteOccurrences, bind_eq_ok, pure_eq_ok] at h
  obtain ⟨⟨occurrences, _⟩, hdelete, h⟩ := h
  obtain rfl := (Table.deleteWhere_ok honest hdelete).1
  obtain ⟨rfl, rfl⟩ := Prod.mk.inj h
  refine ⟨rfl, ?_, ?_⟩
  · intro k hk
    rw [List.filter_filter]
    apply List.filter_congr
    intro row hrow
    by_cases hfits : fits row = true
    · -- the signature of a row that was deleted is among those given
      have hne : row.signature ≠ k := by
        rintro rfl
        apply hk
        simp only [List.map_map, Function.comp_def, List.map_id', List.mem_mergeSort,
          List.mem_eraseDups, List.mem_map, List.mem_filter]
        exact ⟨row, ⟨hrow, hfits⟩, rfl⟩
      simp [hne]
    · simp [hfits]
  · intro r _ _ hleft hnone
    apply hleft
    rw [List.filter_comm, hnone, List.filter_nil]

/-! ## Changes of a store -/

end Portfolio

open Portfolio in
/-- The occurrences after a change of the store of a project was applied. -/
def StoreChange.apply (projectId : String) (now : Int) (rows : List OccurrenceRow) :
    StoreChange → List OccurrenceRow
  | .retract id => rows.filter fun row => !(row.projectId == projectId && row.patternId == id)
  | .upsert p => putOccurrence rows (p.occurrence projectId now)

/-- A pattern that is written has the category of its content. -/
def StoreChange.Proper : StoreChange → Prop
  | retract _ => True
  | upsert p => p.category = p.content.category

namespace Portfolio

variable {portfolio after : Portfolio} {projectId : String} {attempts : Nat} {now : Int}

/-- A change writes occurrences and renews the signatures that it covers. -/
lemma applyChange_renewed {change : StoreChange} {counts : SyncCounts}
    (h : portfolio.applyChange projectId attempts now change = .ok (after, counts))
    (honest : portfolio.faults.Honest) :
    ∃ renewals, Covers renewals portfolio.occurrences
        (change.apply projectId now portfolio.occurrences) ∧
      (change.Proper → Named renewals) ∧
      RenewedAll now renewals { portfolio with
        occurrences := change.apply projectId now portfolio.occurrences } after := by
  cases change with
  | retract id =>
    simp only [applyChange, bind_eq_ok, pure_eq_ok] at h
    obtain ⟨⟨mid, signatures⟩, hdelete, refreshed, hrefresh, h⟩ := h
    obtain ⟨rfl, -⟩ := Prod.mk.inj h
    obtain ⟨rfl, covers⟩ := deleteOccurrences_ok hdelete honest
    exact ⟨_, covers, fun _ => named_untold signatures, refreshAll_ok hrefresh⟩
  | upsert p =>
    simp only [applyChange, bind_eq_ok, pure_eq_ok] at h
    obtain ⟨⟨mid, existed⟩, hupsert, ⟨refreshed, outcome, lost⟩, hrefresh, h⟩ := h
    obtain ⟨rfl, -⟩ := Prod.mk.inj h
    obtain rfl := upsertOccurrence_ok hupsert honest
    refine ⟨[(p.content.signature, some ⟨p.category.name, p.content.describe⟩)], ⟨?_, ?_⟩, ?_,
      .cons (refresh_ok hrefresh) (.nil _)⟩
    · intro k hk
      rw [List.map_singleton, List.mem_singleton] at hk
      rw [StoreChange.apply, putOccurrence, Table.filter_put, if_neg]
      · simpa [Pattern.occurrence] using Ne.symm hk
      · intro old hold
        rw [(sameOccurrence_iff.mp hold).1]
    · intro r hr hnone
      rw [List.mem_singleton] at hr
      rw [hr] at hnone
      cases hnone
    · intro proper r hr told htold
      rw [List.mem_singleton] at hr
      obtain rfl := hr
      obtain rfl := Option.some.inj htold
      exact ⟨p.content, rfl, congrArg Category.name proper⟩

lemma applyChange_ok {change : StoreChange} {counts : SyncCounts}
    (h : portfolio.applyChange projectId attempts now change = .ok (after, counts))
    (honest : portfolio.faults.Honest) :
    ∃ aggregations, after = { portfolio with
      aggregations, occurrences := change.apply projectId now portfolio.occurrences } := by
  obtain ⟨renewals, -, -, renewed⟩ := applyChange_renewed h honest
  exact renewed.refreshed

/-- Changes applied one after another. -/
lemma applyChanges_ok {changes : List StoreChange} {counts counts' : SyncCounts}
    (h : changes.foldlM (fun (progress : Portfolio × SyncCounts) change => do
      let (portfolio, more) ← progress.1.applyChange projectId attempts now change
      return (portfolio, progress.2.add more)) (portfolio, counts) = .ok (after, counts'))
    (honest : portfolio.faults.Honest) :
    ∃ aggregations, after = { portfolio with
      aggregations
      occurrences := changes.foldl (StoreChange.apply projectId now) portfolio.occurrences } := by
  induction changes generalizing portfolio counts with
  | nil =>
    obtain ⟨rfl, -⟩ := Prod.mk.inj (pure_eq_ok.mp h)
    exact ⟨_, rfl⟩
  | cons change changes ih =>
    rw [List.foldlM_cons] at h
    obtain ⟨_, hfirst, hrest⟩ := bind_eq_ok.mp h
    obtain ⟨⟨mid, more⟩, hchange, hmid⟩ := bind_eq_ok.mp hfirst
    obtain rfl := pure_eq_ok.mp hmid
    obtain ⟨_, rfl⟩ := applyChange_ok hchange honest
    obtain ⟨aggregations, rfl⟩ := ih hrest honest
    exact ⟨aggregations, rfl⟩

/-- The changes of one version, and the checkpoint moved to it. -/
lemma applyVersion_ok {group : VersionChanges} {counts : SyncCounts}
    (h : portfolio.applyVersion projectId attempts now group = .ok (after, counts))
    (honest : portfolio.faults.Honest) :
    ∃ aggregations, after = { portfolio.withProject projectId
        (advanced (storedWord group.version) now) with
      aggregations
      occurrences :=
        group.changes.foldl (StoreChange.apply projectId now) portfolio.occurrences } := by
  obtain ⟨⟨mid, counts'⟩, hchanges, h⟩ := bind_eq_ok.mp h
  obtain ⟨left, hadvance, h⟩ := bind_eq_ok.mp h
  obtain ⟨rfl, -⟩ := Prod.mk.inj (pure_eq_ok.mp h)
  obtain ⟨aggregations, rfl⟩ := applyChanges_ok hchanges honest
  obtain rfl := advanceCheckpoint_ok hadvance honest
  exact ⟨aggregations, rfl⟩

/-- The end of a sync changes the row of its project only. -/
lemma closeSync_ok {reached : Nat} {store : PatternStore}
    (h : portfolio.closeSync projectId reached now store = .ok after)
    (honest : portfolio.faults.Honest) :
    after = (portfolio.withProject projectId (advanced (storedWord reached) now)).withProject
      projectId (counted store.patterns.length store.concepts.length) := by
  obtain ⟨mid, hadvance, hstats⟩ := bind_eq_ok.mp h
  obtain rfl := advanceCheckpoint_ok hadvance honest
  exact updateStats_ok hstats honest

/-! ## A rebase -/

/-- A rebase deletes the occurrences of a known project and renews the signatures they had. -/
lemma rebase_renewed {count : Nat}
    (h : portfolio.rebase attempts now projectId = .ok (after, count))
    (honest : portfolio.faults.Honest) :
    (portfolio.getProject? projectId).isSome = true ∧ ∃ renewals mid,
      Covers renewals portfolio.occurrences
        (portfolio.occurrences.filter fun row => !(row.projectId == projectId)) ∧
      Named renewals ∧ RenewedAll now renewals { portfolio with
        occurrences := portfolio.occurrences.filter fun row => !(row.projectId == projectId) }
        mid ∧
      after = mid.withProject projectId (restarted now) := by
  simp only [rebase] at h
  split at h
  · cases h
  · next hknown =>
    simp only [mapError_eq_ok, bind_eq_ok, pure_eq_ok] at h
    obtain ⟨⟨mid, signatures⟩, hdelete, refreshed, hrefresh, left, hreset, h⟩ := h
    obtain ⟨rfl, -⟩ := Prod.mk.inj h
    obtain ⟨rfl, covers⟩ := deleteOccurrences_ok hdelete honest
    have renewed := refreshAll_ok hrefresh
    have hfaults : refreshed.faults = portfolio.faults := by
      obtain ⟨_, rfl⟩ := renewed.refreshed
      rfl
    refine ⟨Option.isSome_iff_ne_none.mpr fun hnone => hknown (hnone ▸ rfl), _, refreshed,
      covers, named_untold signatures, renewed, resetCheckpoint_ok hreset (hfaults ▸ honest)⟩

/-! ## Checkpoints -/

/-- The checkpoint of a registered project. -/
def checkpoint? (portfolio : Portfolio) (id : String) : Option Int :=
  (portfolio.getProject? id).map (·.lastSyncedVersion)

/-- A change of the row of one project, which keeps its id. -/
lemma ids_withProject {id : String} {change : ProjectRow → ProjectRow}
    (hid : ∀ row, (change row).id = row.id) :
    (portfolio.withProject id change).projects.map (·.id) = portfolio.projects.map (·.id) :=
  Table.map_key_changed ProjectRow.id (fun row hrow => (hid row).trans hrow) _

lemma getProject?_withProject {id : String} {change : ProjectRow → ProjectRow}
    (hid : ∀ row, (change row).id = row.id) (k : String) :
    (portfolio.withProject id change).getProject? k =
      (portfolio.getProject? k).map fun row => if k = id then change row else row :=
  Table.lookup_changed ProjectRow.id (fun row hrow => (hid row).trans hrow) _ _

/-- A write to a project's row that keeps the checkpoint. -/
lemma checkpoint?_withProject {id : String} {change : ProjectRow → ProjectRow}
    (hid : ∀ row, (change row).id = row.id)
    (hcheckpoint : ∀ row, (change row).lastSyncedVersion = row.lastSyncedVersion) (k : String) :
    (portfolio.withProject id change).checkpoint? k = portfolio.checkpoint? k := by
  rw [checkpoint?, getProject?_withProject hid, checkpoint?, Option.map_map]
  congr 1
  funext row
  rw [Function.comp_apply]
  split
  · exact hcheckpoint row
  · rfl

/-! ## The register -/

/-- The register has changed, but no occurrence and no checkpoint that there was. -/
structure Registered (portfolio after : Portfolio) : Prop where
  occurrences : after.occurrences = portfolio.occurrences
  checkpoints : ∀ k, after.checkpoint? k = portfolio.checkpoint? k ∨
    (portfolio.checkpoint? k = none ∧ after.checkpoint? k = some 0)

lemma Refreshed.registered {mid : Portfolio} (refreshed : mid.Refreshed after)
    (registered : portfolio.Registered mid) : portfolio.Registered after := by
  obtain ⟨_, rfl⟩ := refreshed
  exact ⟨registered.occurrences, registered.checkpoints⟩

lemma registered_withProject {id : String} {change : ProjectRow → ProjectRow}
    (hid : ∀ row, (change row).id = row.id)
    (hcheckpoint : ∀ row, (change row).lastSyncedVersion = row.lastSyncedVersion) :
    portfolio.Registered (portfolio.withProject id change) :=
  ⟨rfl, fun k => .inl (checkpoint?_withProject hid hcheckpoint k)⟩

/-- A path that is known has its project made active; for another one a project is added. -/
lemma register_cases {newId path id : String} {metadata : ProjectMetadata} {known : Bool}
    (h : portfolio.register newId path metadata now = .ok (after, id, known))
    (honest : portfolio.faults.Honest) :
    (∃ own name language frameworks,
      after = portfolio.withProject own (relinked name language frameworks)) ∨
    ∃ row : ProjectRow, (∀ r ∈ portfolio.projects, r.id ≠ row.id) ∧ row.lastSyncedVersion = 0 ∧
      after = { portfolio with projects := portfolio.projects ++ [row] } := by
  simp only [register] at h
  split at h
  · obtain ⟨mid, hrelink, h⟩ := bind_eq_ok.mp h
    obtain ⟨rfl, -⟩ := Prod.mk.inj (pure_eq_ok.mp h)
    exact .inl ⟨_, _, _, _, relinkProject_ok hrelink honest⟩
  · obtain ⟨mid, hinsert, h⟩ := bind_eq_ok.mp h
    obtain ⟨rfl, -⟩ := Prod.mk.inj (pure_eq_ok.mp h)
    obtain ⟨hnew, hafter⟩ := insertProject_ok hinsert honest
    exact .inr ⟨_, hnew, rfl, hafter⟩

lemma register_ok {newId path id : String} {metadata : ProjectMetadata} {known : Bool}
    (h : portfolio.register newId path metadata now = .ok (after, id, known))
    (honest : portfolio.faults.Honest) : portfolio.Registered after := by
  rcases register_cases h honest with ⟨own, name, language, frameworks, rfl⟩ |
    ⟨row, -, hzero, rfl⟩
  · exact registered_withProject (by exact fun _ => rfl) (by exact fun _ => rfl)
  · refine ⟨rfl, fun k => ?_⟩
    simp only [checkpoint?, getProject?, List.find?_append]
    cases hfound : portfolio.projects.find? (·.id == k) with
    | some row => exact .inl rfl
    | none =>
      by_cases hk : row.id = k
      · exact .inr ⟨rfl, by simp [hk, hzero]⟩
      · exact .inl (by simp [hk])

/-- Linking registers a path and then brings every consensus up to date. -/
lemma link_cases {newId path : String} {metadata : ProjectMetadata} {row : ProjectRow}
    {known : Bool}
    (h : portfolio.link attempts now newId path metadata = .ok (after, row, known)) :
    ∃ mid id changed, portfolio.register newId path metadata now = .ok (mid, id, known) ∧
      mid.recompute attempts now = .ok (after, changed) := by
  simp only [link, bind_eq_ok] at h
  obtain ⟨⟨mid, id, _⟩, hregister, ⟨left, changed⟩, hrecompute, h⟩ := h
  split at h
  · have hend := pure_eq_ok.mp h
    simp only [Prod.mk.injEq] at hend
    obtain ⟨rfl, -, rfl⟩ := hend
    exact ⟨mid, id, changed, hregister, hrecompute⟩
  · cases h

lemma link_ok {newId path : String} {metadata : ProjectMetadata} {row : ProjectRow}
    {known : Bool}
    (h : portfolio.link attempts now newId path metadata = .ok (after, row, known))
    (honest : portfolio.faults.Honest) : portfolio.Registered after := by
  obtain ⟨mid, id, changed, hregister, hrecompute⟩ := link_cases h
  exact (recompute_refreshed hrecompute).registered (register_ok hregister honest)

lemma Registered.refl (portfolio : Portfolio) : portfolio.Registered portfolio :=
  ⟨rfl, fun _ => .inl rfl⟩

/-- Unlinking makes an active project inactive and then brings every consensus up to date. -/
lemma unlink_cases {id : String} {changed : Bool}
    (h : portfolio.unlink attempts now id = .ok (after, changed))
    (honest : portfolio.faults.Honest) :
    after = portfolio ∨ ∃ count,
      (portfolio.withProject id (unlinked now)).recompute attempts now = .ok (after, count) := by
  simp only [unlink] at h
  split at h
  · cases h
  · split at h
    · simp only [mapError_eq_ok, bind_eq_ok, pure_eq_ok] at h
      obtain ⟨⟨mid, deactivated⟩, hdeactivate, ⟨left, count⟩, hrecompute, h⟩ := h
      obtain ⟨rfl, -⟩ := Prod.mk.inj h
      obtain rfl := updateProject_ok hdeactivate honest
      exact .inr ⟨count, hrecompute⟩
    · obtain ⟨rfl, -⟩ := Prod.mk.inj (Except.ok.inj h)
      exact .inl rfl

lemma unlink_ok {id : String} {changed : Bool}
    (h : portfolio.unlink attempts now id = .ok (after, changed))
    (honest : portfolio.faults.Honest) : portfolio.Registered after := by
  rcases unlink_cases h honest with rfl | ⟨count, hrecompute⟩
  · exact .refl _
  · exact (recompute_refreshed hrecompute).registered
      (registered_withProject (by exact fun _ => rfl) (by exact fun _ => rfl))

lemma setStats_cases {id : String} {patterns concepts : Nat}
    (h : portfolio.setStats id patterns concepts = .ok after)
    (honest : portfolio.faults.Honest) :
    ∃ patterns concepts, after = portfolio.withProject id (counted patterns concepts) := by
  simp only [setStats] at h
  split at h
  · cases h
  · exact ⟨_, _, updateStats_ok (mapError_eq_ok.mp h) honest⟩

lemma setStats_ok {id : String} {patterns concepts : Nat}
    (h : portfolio.setStats id patterns concepts = .ok after)
    (honest : portfolio.faults.Honest) : portfolio.Registered after := by
  obtain ⟨_, _, rfl⟩ := setStats_cases h honest
  exact registered_withProject (by exact fun _ => rfl) (by exact fun _ => rfl)

end Portfolio

end HouseStyle
