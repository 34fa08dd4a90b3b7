import HouseStyle.Proofs.Portfolio.Consistency

/-!
# Lost races

Other writers may win races for the row of a signature, so that a conditional write changes
nothing. Both loops that write aggregations come down to one: attempts that are made again until
one ends or all are used up. An attempt that is lost leaves everything as it was, so the next one
meets the very same rows, and all that races can do is use up attempts.
-/

namespace HouseStyle

variable {α β : Type}

/-- Attempts one after another, counted from `first`, until one ends. The answer tells which. -/
def retry (attempt : Nat → Except StorageError (Option α)) (conflict : StorageError)
    (first : Nat) : (left : Nat) → Except StorageError (α × Nat)
  | 0 => .error conflict
  | left + 1 => do
    match ← attempt first with
    | some ending => return (ending, first)
    | none => retry attempt conflict (first + 1) left

section Retry

variable {attempt : Nat → Except StorageError (Option α)} {conflict : StorageError}

lemma retry_ended {first left : Nat} {a : α} (h : attempt first = .ok (some a)) :
    retry attempt conflict first (left + 1) = .ok (a, first) := by
  rw [retry, h]
  rfl

lemma retry_failed {first left : Nat} {error : StorageError} (h : attempt first = .error error) :
    retry attempt conflict first (left + 1) = .error error := by
  rw [retry, h]
  rfl

lemma retry_lost {first left : Nat} (h : attempt first = .ok none) :
    retry attempt conflict first (left + 1) = retry attempt conflict (first + 1) left := by
  rw [retry, h]
  rfl

/-- Attempts that are lost lead to the one after them. -/
lemma retry_skip {first count : Nat}
    (lost : ∀ i, first ≤ i → i < first + count → attempt i = .ok none) (left : Nat) :
    retry attempt conflict first (count + left) = retry attempt conflict (first + count) left := by
  induction count generalizing first with
  | zero => rw [Nat.zero_add, Nat.add_zero]
  | succ count ih =>
    rw [Nat.add_right_comm, retry_lost (lost first (Nat.le_refl _) (by omega)),
      ih fun i hfirst hcount => lost i (by omega) (by omega), Nat.add_right_comm first,
      Nat.add_assoc]

/-- When `count` attempts are lost and all later ones go as they would without races, the first
of those decides, unless all have been used up. -/
theorem retry_contended {calm : Except StorageError (Option α)} {count : Nat}
    (lost : ∀ i < count, attempt i = .ok none) (later : ∀ i, count ≤ i → attempt i = calm)
    (attempts : Nat) :
    retry attempt conflict 0 attempts =
      if count < attempts then
        (fun ending => (ending.1, count)) <$> retry (fun _ => calm) conflict 0 attempts
      else .error conflict := by
  split
  · obtain ⟨left, rfl⟩ : ∃ left, attempts = count + (left + 1) := ⟨attempts - count - 1, by omega⟩
    rw [retry_skip (fun i _ hi => lost i (by omega)), Nat.zero_add]
    cases hcalm : calm with
    | error error =>
      rw [retry_failed ((later count (Nat.le_refl _)).trans hcalm), ← Nat.add_assoc,
        retry_failed rfl]
      rfl
    | ok ending =>
      cases ending with
      | some a =>
        rw [retry_ended ((later count (Nat.le_refl _)).trans hcalm), ← Nat.add_assoc,
          retry_ended rfl]
        rfl
      | none =>
        -- what loses without races loses every attempt
        have all : ∀ i, count ≤ i → attempt i = .ok none := fun i hi => (later i hi).trans hcalm
        rw [← Nat.add_zero (left + 1), retry_skip (fun i hi _ => all i hi),
          ← Nat.add_assoc count, retry_skip (fun _ _ _ => rfl)]
        rfl
  · rw [← Nat.add_zero attempts, retry_skip (fun i _ hi => lost i (by omega))]
    rfl

/-- What is made of the end of an attempt can be made of it afterwards. -/
lemma retry_map (f : α → β) (first left : Nat) :
    retry (fun i => Option.map f <$> attempt i) conflict first left =
      Prod.map f id <$> retry attempt conflict first left := by
  induction left generalizing first with
  | zero => rfl
  | succ left ih =>
    rw [retry, retry]
    cases attempt first with
    | error error => rfl
    | ok ending =>
      cases ending with
      | some a => rfl
      | none => exact ih (first + 1)

end Retry

namespace Portfolio

variable {portfolio after : Portfolio} {races : List (String × Nat)} {signature : String}
  {text : Option RuleText} {attempts : Nat} {now : Int}

/-! ## Portfolios that differ in races -/

/-- How many races for the row of a signature are lost. -/
def losses (races : List (String × Nat)) (signature : String) : Nat :=
  (races.lookup signature).getD 0

/-- The portfolio with other races to lose. -/
def withRaces (portfolio : Portfolio) (races : List (String × Nat)) : Portfolio :=
  portfolio.under { portfolio.faults with lostRaces := races }

/-- The portfolio without races. -/
def calm (portfolio : Portfolio) : Portfolio := portfolio.withRaces []

/-- A portfolio without races. -/
def Calm (portfolio : Portfolio) : Prop := portfolio.calm = portfolio

/-- The portfolio where other writers win the first races for the row of one signature. -/
def losing (portfolio : Portfolio) (signature : String) (count : Nat) : Portfolio :=
  portfolio.withRaces [(signature, count)]

/-- The result of a write with races put back. -/
def relabel (races : List (String × Nat)) (result : Portfolio × α) : Portfolio × α :=
  (result.1.withRaces races, result.2)

/-! ### What is read -/

@[simp] lemma projects_withRaces : (portfolio.withRaces races).projects = portfolio.projects := rfl

@[simp] lemma aggregations_withRaces :
    (portfolio.withRaces races).aggregations = portfolio.aggregations := rfl

lemma effect?_withRaces (table : Table) (kind : WriteKind) :
    (portfolio.withRaces races).faults.effect? table kind = portfolio.faults.effect? table kind :=
  rfl

lemma allows_withRaces (table : Table) (kind : WriteKind) :
    (portfolio.withRaces races).faults.allows table kind = portfolio.faults.allows table kind := rfl

@[simp] lemma occurrencesFor_withRaces :
    (portfolio.withRaces races).occurrencesFor signature = portfolio.occurrencesFor signature := rfl

@[simp] lemma getAggregation?_withRaces :
    (portfolio.withRaces races).getAggregation? signature = portfolio.getAggregation? signature :=
  rfl

@[simp] lemma aggregate_withRaces {told : RuleText} {occurrences : List Occurrence}
    {createdAt : Int} : (portfolio.withRaces races).aggregate signature told occurrences createdAt
      now = portfolio.aggregate signature told occurrences createdAt now := rfl

/-! ### What is written -/

lemma insertAggregation_withRaces (portfolio : Portfolio) (row : AggregationRow) :
    (portfolio.withRaces races).insertAggregation row =
      relabel races <$> portfolio.insertAggregation row := by
  simp only [insertAggregation, allows_withRaces, getAggregation?_withRaces, map_bind, map_pure,
    apply_ite (relabel races <$> ·)]
  rfl

lemma updateAggregationIf_withRaces (portfolio : Portfolio) (expected : Int)
    (change : AggregationRow → AggregationRow) :
    (portfolio.withRaces races).updateAggregationIf signature expected change =
      relabel races <$> portfolio.updateAggregationIf signature expected change := by
  simp only [updateAggregationIf, aggregations_withRaces]
  split
  · simp only [allows_withRaces, effect?_withRaces, map_bind, map_pure,
      apply_ite (relabel races <$> ·)]
    rfl
  · rfl

lemma casDelete_withRaces (portfolio : Portfolio) (expected : Int) :
    (portfolio.withRaces races).casDelete signature expected =
      relabel races <$> portfolio.casDelete signature expected := by
  simp only [casDelete, map_bind, map_pure]
  rfl

/-- A write that does not look at races goes as it does without them, unless it loses one. -/
lemma racing_withRaces {attempt : Nat}
    {write : Portfolio → Except StorageError (Portfolio × Bool)}
    (blind : write (portfolio.withRaces races) = relabel races <$> write portfolio.calm)
    (won : losses races signature ≤ attempt) :
    (portfolio.withRaces races).racing signature attempt write =
      relabel races <$> portfolio.calm.racing signature attempt write := by
  have hwon : (portfolio.withRaces races).faults.losesRace signature attempt = false :=
    decide_eq_false (Nat.not_lt.mpr won)
  rw [racing, if_neg (Bool.eq_false_iff.mp hwon), blind]
  rfl

lemma racing_calm (portfolio : Portfolio) (attempt : Nat)
    (write : Portfolio → Except StorageError (Portfolio × Bool)) :
    portfolio.calm.racing signature attempt write = write portfolio.calm := rfl

lemma racing_lost {attempt : Nat}
    {write : Portfolio → Except StorageError (Portfolio × Bool)}
    (lost : attempt < losses races signature) :
    (portfolio.withRaces races).racing signature attempt write =
      .ok (portfolio.withRaces races, false) :=
  if_pos (decide_eq_true lost)

/-! ## A refresh -/

/-- A refresh comes to a conditional write: it deletes the row of a signature that has no
occurrences left, or writes the one that sums up its occurrences. -/
inductive Contested (portfolio : Portfolio) (signature : String) (text : Option RuleText) :
    Prop where
  | deletes (row : AggregationRow) (nothing : portfolio.occurrencesFor signature = [])
      (known : portfolio.getAggregation? signature = some row)
  | updates (row : AggregationRow) (occurrences : List Occurrence)
      (something : portfolio.occurrencesFor signature ≠ [])
      (read : (portfolio.occurrencesFor signature).mapM Occurrence.ofRow = .ok occurrences)
      (known : portfolio.getAggregation? signature = some row)
  | inserts (told : RuleText) (occurrences : List Occurrence)
      (something : portfolio.occurrencesFor signature ≠ [])
      (read : (portfolio.occurrencesFor signature).mapM Occurrence.ofRow = .ok occurrences)
      (unknown : portfolio.getAggregation? signature = none) (given : text = some told)

/-- The revision of the row of a signature. -/
def revision? (portfolio : Portfolio) (signature : String) : Option Int :=
  (portfolio.getAggregation? signature).map (·.revision)

def Attempt.withRaces (races : List (String × Nat)) : Attempt → Attempt
  | .done portfolio outcome => .done (portfolio.withRaces races) outcome
  | .lost portfolio revision => .lost (portfolio.withRaces races) revision

/-- The end of an attempt, if it is not lost. -/
def Attempt.ended? : Attempt → Option (Portfolio × RefreshOutcome)
  | .done portfolio outcome => some (portfolio, outcome)
  | .lost _ _ => none

/-- An attempt to refresh a contested signature that loses its race. -/
lemma attemptRefresh_lost {attempt : Nat} (contested : portfolio.Contested signature text)
    (lost : attempt < losses races signature) :
    (portfolio.withRaces races).attemptRefresh signature text attempt now =
      .ok (.lost (portfolio.withRaces races) (portfolio.revision? signature)) := by
  unfold attemptRefresh revision?
  simp only [occurrencesFor_withRaces, getAggregation?_withRaces, racing_lost lost]
  cases contested with
  | deletes row nothing known =>
    rw [nothing, known]
    rfl
  | updates row occurrences something read known =>
    rw [if_neg (by simpa using something), read, known]
    rfl
  | inserts told occurrences something read unknown given =>
    rw [if_neg (by simpa using something), read, unknown, given]
    rfl

/-- The end of an attempt whose write goes as it does without races. -/
lemma ended_withRaces {raced free : Except StorageError (Portfolio × Bool)}
    (same : raced = relabel races <$> free) (outcome : RefreshOutcome) (revision : Option Int) :
    (raced >>= fun x =>
      pure (if x.2 = true then Attempt.done x.1 outcome else Attempt.lost x.1 revision)) =
      Attempt.withRaces races <$> (free >>= fun x =>
        pure (if x.2 = true then Attempt.done x.1 outcome else Attempt.lost x.1 revision)) := by
  rw [same]
  cases free with
  | error error => rfl
  | ok result =>
    obtain ⟨written, won⟩ := result
    cases won with
    | true => rfl
    | false => rfl

/-- An attempt that meets no race goes as it does without races. -/
lemma attemptRefresh_withRaces {attempt : Nat}
    (free : portfolio.Contested signature text → losses races signature ≤ attempt) :
    (portfolio.withRaces races).attemptRefresh signature text attempt now =
      Attempt.withRaces races <$>
        portfolio.calm.attemptRefresh signature text attempt now := by
  unfold attemptRefresh calm
  by_cases hnothing : portfolio.occurrencesFor signature = []
  · simp only [occurrencesFor_withRaces, getAggregation?_withRaces, hnothing, List.isEmpty_nil,
      if_true]
    cases known : portfolio.getAggregation? signature with
    | none => rfl
    | some row =>
      exact ended_withRaces (racing_withRaces (casDelete_withRaces portfolio.calm _)
        (free (.deletes row hnothing known))) _ _
  · simp only [occurrencesFor_withRaces, getAggregation?_withRaces, aggregate_withRaces,
      List.isEmpty_iff, hnothing, if_false]
    cases read : (portfolio.occurrencesFor signature).mapM Occurrence.ofRow with
    | error error => rfl
    | ok occurrences =>
      cases known : portfolio.getAggregation? signature with
      | some row =>
        exact ended_withRaces (racing_withRaces (updateAggregationIf_withRaces portfolio.calm _ _)
          (free (.updates row occurrences hnothing read known))) _ _
      | none =>
        cases given : text with
        | none => rfl
        | some told =>
          exact ended_withRaces (racing_withRaces (insertAggregation_withRaces portfolio.calm _)
            (free (.inserts told occurrences hnothing read known given))) _ _

/-- Without races it does not matter which attempt it is. -/
lemma attemptRefresh_calm (portfolio : Portfolio) (i j : Nat) :
    portfolio.calm.attemptRefresh signature text i now =
      portfolio.calm.attemptRefresh signature text j now := by
  unfold attemptRefresh
  simp only [racing_calm]

/-- An attempt that is lost tells the revision that its write was given. -/
lemma ended_revision {write : Except StorageError (Portfolio × Bool)} {outcome : RefreshOutcome}
    {revision told : Option Int}
    (h : (write >>= fun x => pure (if x.2 = true then Attempt.done x.1 outcome
      else Attempt.lost x.1 revision)) = .ok (.lost after told)) : told = revision := by
  obtain ⟨⟨written, won⟩, -, h⟩ := bind_eq_ok.mp h
  have hend := pure_eq_ok.mp h
  cases won with
  | true => cases hend
  | false => exact (Attempt.lost.inj hend).2.symm

lemma attemptRefresh_revision {attempt : Nat} {told : Option Int}
    (h : portfolio.attemptRefresh signature text attempt now = .ok (.lost after told)) :
    told = portfolio.revision? signature := by
  unfold attemptRefresh at h
  simp only at h
  split at h
  · split at h
    · cases pure_eq_ok.mp h
    · next current known => rw [ended_revision h, revision?, known, Option.map_some]
  · obtain ⟨occurrences, -, h⟩ := bind_eq_ok.mp h
    split at h
    · next current known _ => rw [ended_revision h, revision?, known, Option.map_some]
    · next told unknown _ => rw [ended_revision h, revision?, unknown, Option.map_none]
    · cases pure_eq_ok.mp h

/-- What is reported when all attempts are used up: the revision that was met is there still. -/
def conflict (portfolio : Portfolio) (signature : String) : StorageError :=
  let revision := ((portfolio.revision? signature).getD 0).toNat
  .versionConflict revision revision

/-- Trying on is making attempts at what is there at first, since those that are lost leave it as
it was. `final` is the revision that was last read when all attempts are used up. -/
lemma refreshFrom_eq_retry {lastRevision final : Int} (first left : Nat)
    (met : (portfolio.revision? signature).getD lastRevision = final)
    (spent : left = 0 → lastRevision = final) :
    refreshFrom signature text now lastRevision first left portfolio =
      (fun ending => (ending.1.1, ending.1.2, ending.2)) <$>
        retry (fun i => Attempt.ended? <$> portfolio.attemptRefresh signature text i now)
          (.versionConflict final.toNat ((portfolio.revision? signature).getD 0).toNat)
          first left := by
  induction left generalizing lastRevision first with
  | zero =>
    rw [spent rfl]
    rfl
  | succ left ih =>
    rw [refreshFrom, retry]
    cases h : portfolio.attemptRefresh signature text first now with
    | error error => rfl
    | ok outcome =>
      cases outcome with
      | done written result => rfl
      | lost written revision =>
        obtain rfl : written = portfolio := attemptRefresh_ok h
        refine ih (first + 1) ?_ fun _ => ?_
        · rw [attemptRefresh_revision h, met, ← met]
          cases written.revision? signature with
          | none => rfl
          | some revision => rfl
        · rw [attemptRefresh_revision h, met]

theorem refresh_eq_retry (portfolio : Portfolio) (signature : String) (text : Option RuleText)
    (attempts : Nat) (now : Int) :
    portfolio.refresh signature text attempts now =
      (fun ending => (ending.1.1, ending.1.2, ending.2)) <$>
        retry (fun i => Attempt.ended? <$> portfolio.attemptRefresh signature text i now)
          (portfolio.conflict signature) 0 (max attempts 1) :=
  refreshFrom_eq_retry 0 _ rfl (by omega)

/-- An attempt that does not lose a race ends as it does without races. -/
lemma ended?_withRaces (outcome : Except StorageError Attempt) :
    Attempt.ended? <$> (Attempt.withRaces races <$> outcome) =
      Option.map (relabel races) <$> (Attempt.ended? <$> outcome) := by
  cases outcome with
  | error error => rfl
  | ok outcome => cases outcome <;> rfl

/-- A refresh that loses races ends as it would have without them, and tells how many it lost.
When all attempts are lost, it fails. -/
theorem refresh_contested (contested : portfolio.Contested signature text) (attempts : Nat)
    (now : Int) :
    (portfolio.withRaces races).refresh signature text attempts now =
      if losses races signature < max attempts 1 then
        (fun ending => (ending.1.withRaces races, ending.2.1, losses races signature)) <$>
          portfolio.calm.refresh signature text attempts now
      else .error (portfolio.conflict signature) := by
  have lost : ∀ i < losses races signature, Attempt.ended? <$>
      (portfolio.withRaces races).attemptRefresh signature text i now = .ok none := by
    intro i hi
    rw [attemptRefresh_lost contested hi]
    rfl
  have later : ∀ i, losses races signature ≤ i → Attempt.ended? <$>
      (portfolio.withRaces races).attemptRefresh signature text i now =
        Option.map (relabel races) <$>
          (Attempt.ended? <$> portfolio.calm.attemptRefresh signature text 0 now) := by
    intro i hi
    rw [attemptRefresh_withRaces fun _ => hi, ended?_withRaces, portfolio.attemptRefresh_calm i 0]
  have calm : (fun i => Attempt.ended? <$> portfolio.calm.attemptRefresh signature text i now) =
      fun _ => Attempt.ended? <$> portfolio.calm.attemptRefresh signature text 0 now :=
    funext fun i => by rw [portfolio.attemptRefresh_calm i 0]
  rw [refresh_eq_retry, refresh_eq_retry, retry_contended lost later, retry_map, calm]
  split
  · simp only [Functor.map_map]
    rfl
  · rfl

/-- A refresh that comes to no conditional write does not meet races. -/
theorem refresh_uncontested (uncontested : ¬ portfolio.Contested signature text) (attempts : Nat)
    (now : Int) :
    (portfolio.withRaces races).refresh signature text attempts now =
      relabel races <$> portfolio.calm.refresh signature text attempts now := by
  have same : (fun i => Attempt.ended? <$>
      (portfolio.withRaces races).attemptRefresh signature text i now) =
        fun i => Option.map (relabel races) <$>
          (Attempt.ended? <$> portfolio.calm.attemptRefresh signature text i now) :=
    funext fun i => by
      rw [attemptRefresh_withRaces fun contested => absurd contested uncontested,
        ended?_withRaces]
  rw [refresh_eq_retry, refresh_eq_retry, same, retry_map]
  simp only [Functor.map_map]
  rfl

/-- A refresh that is left an attempt writes what it would have written without races. -/
lemma refresh_withRaces (calm : portfolio.Calm)
    (room : losses races signature < max attempts 1) :
    (·.1) <$> (portfolio.withRaces races).refresh signature text attempts now =
      (withRaces · races) <$> ((·.1) <$> portfolio.refresh signature text attempts now) := by
  by_cases contested : portfolio.Contested signature text
  · rw [refresh_contested contested, calm, if_pos room, Functor.map_map, Functor.map_map]
  · rw [refresh_uncontested contested, calm, Functor.map_map, Functor.map_map]
    rfl

/-! ## A consensus -/

/-- The portfolio that a conditional write leaves, unless it is lost. -/
def written? (result : Portfolio × Bool) : Option Portfolio :=
  if result.2 then some result.1 else none

/-- One attempt at a consensus that differs. One that is lost meets the same row again. -/
lemma recomputeFrom_attempt {row : AggregationRow} {active first left : Nat}
    (known : portfolio.getAggregation? signature = some row)
    (different : sameConsensus (consensus (portfolio.activeCountFor signature) active)
      row.consensusScore = false) :
    recomputeFrom signature active now row.consensusScore row.revision first left portfolio =
      (portfolio.racing signature first fun p => p.casConsensus signature
        (consensus (portfolio.activeCountFor signature) active) row.revision now) >>= fun result =>
          match written? result, left with
          | some written, _ => .ok (written, true)
          | none, 0 => .error (portfolio.conflict signature)
          | none, left + 1 => recomputeFrom signature active now row.consensusScore row.revision
              (first + 1) left portfolio := by
  have hconflict : portfolio.conflict signature =
      .versionConflict row.revision.toNat row.revision.toNat := by
    rw [conflict, revision?, known]
    rfl
  rw [recomputeFrom]
  simp only [different, Bool.false_eq_true, if_false]
  cases hracing : portfolio.racing signature first fun p => p.casConsensus signature
      (consensus (portfolio.activeCountFor signature) active) row.revision now with
  | error error => rfl
  | ok result =>
    obtain ⟨written, won⟩ := result
    cases won with
    | true => rfl
    | false =>
      obtain rfl := (racing_ok updateAggregationIf_ok hracing).lost rfl
      simp only [bind, Except.bind, known, hconflict]
      cases left with
      | zero => rfl
      | succ left => rfl

/-- Bringing a consensus up to date is making attempts at what is there at first. -/
lemma recomputeFrom_eq_retry {row : AggregationRow} {active : Nat} (first left : Nat)
    (known : portfolio.getAggregation? signature = some row)
    (different : sameConsensus (consensus (portfolio.activeCountFor signature) active)
      row.consensusScore = false) :
    recomputeFrom signature active now row.consensusScore row.revision first left portfolio =
      (fun ending => (ending.1, true)) <$>
        retry (fun i => written? <$> portfolio.racing signature i fun p =>
          p.casConsensus signature (consensus (portfolio.activeCountFor signature) active)
            row.revision now) (portfolio.conflict signature) first (left + 1) := by
  rw [recomputeFrom_attempt known different, retry]
  cases portfolio.racing signature first fun p => p.casConsensus signature _ row.revision now with
  | error error => rfl
  | ok result =>
    simp only [Functor.map, Except.map, bind, Except.bind]
    cases written? result with
    | some written => rfl
    | none =>
      cases left with
      | zero => rfl
      | succ left => exact recomputeFrom_eq_retry (first + 1) left known different

/-- The turn of a signature whose consensus was last read in a row. -/
def turn (portfolio : Portfolio) (row : AggregationRow) (active attempts : Nat) (now : Int) :
    Except StorageError (Portfolio × Bool) :=
  recomputeFrom row.signature active now row.consensusScore row.revision 0 (max attempts 1 - 1)
    portfolio

lemma turn_eq_retry (portfolio : Portfolio) {row : AggregationRow} {active : Nat} {wanted : Float}
    (known : portfolio.getAggregation? row.signature = some row)
    (hwanted : consensus (portfolio.activeCountFor row.signature) active = wanted)
    (different : sameConsensus wanted row.consensusScore = false) (attempts : Nat) (now : Int) :
    portfolio.turn row active attempts now = (fun ending => (ending.1, true)) <$>
      retry (fun i => written? <$> portfolio.racing row.signature i fun p =>
        p.casConsensus row.signature wanted row.revision now)
          (portfolio.conflict row.signature) 0 (max attempts 1) := by
  subst hwanted
  have hleft : max attempts 1 - 1 + 1 = max attempts 1 := by omega
  rw [turn, recomputeFrom_eq_retry 0 _ known different, hleft]

/-- What a write leaves that goes as it does without races. -/
lemma written?_relabel (result : Except StorageError (Portfolio × Bool)) :
    written? <$> (relabel races <$> result) =
      Option.map (·.withRaces races) <$> (written? <$> result) := by
  cases result with
  | error error => rfl
  | ok result =>
    obtain ⟨written, won⟩ := result
    cases won <;> rfl

/-- A turn that loses races ends as it would have without them. When all attempts are lost, it
fails. -/
theorem turn_contended {row : AggregationRow} {active : Nat}
    (known : portfolio.getAggregation? row.signature = some row)
    (different : sameConsensus (consensus (portfolio.activeCountFor row.signature) active)
      row.consensusScore = false) (attempts : Nat) (now : Int) :
    (portfolio.withRaces races).turn row active attempts now =
      if losses races row.signature < max attempts 1 then
        relabel races <$> portfolio.calm.turn row active attempts now
      else .error (portfolio.conflict row.signature) := by
  generalize hwanted : consensus (portfolio.activeCountFor row.signature) active = wanted
    at different
  have lost : ∀ i < losses races row.signature, written? <$>
      ((portfolio.withRaces races).racing row.signature i fun p =>
        p.casConsensus row.signature wanted row.revision now) = .ok none := by
    intro i hi
    rw [racing_lost hi]
    rfl
  have later : ∀ i, losses races row.signature ≤ i → written? <$>
      ((portfolio.withRaces races).racing row.signature i fun p =>
        p.casConsensus row.signature wanted row.revision now) =
      Option.map (·.withRaces races) <$>
        (written? <$> portfolio.calm.casConsensus row.signature wanted row.revision now) := by
    intro i hi
    rw [racing_withRaces (updateAggregationIf_withRaces portfolio.calm _ _) hi, written?_relabel]
    rfl
  rw [(portfolio.withRaces races).turn_eq_retry known hwanted different,
    portfolio.calm.turn_eq_retry known hwanted different, retry_contended lost later, retry_map]
  split
  · simp only [Functor.map_map]
    rfl
  · rfl

/-- A turn that is left an attempt goes as it would without races. -/
lemma turn_withRaces {row : AggregationRow} {active : Nat} (calm : portfolio.Calm)
    (known : portfolio.getAggregation? row.signature = some row)
    (room : losses races row.signature < max attempts 1) :
    (portfolio.withRaces races).turn row active attempts now =
      relabel races <$> portfolio.turn row active attempts now := by
  cases hsame : sameConsensus (consensus (portfolio.activeCountFor row.signature) active)
      row.consensusScore with
  | true =>
    have settled : ∀ p : Portfolio,
        p.activeCountFor row.signature = portfolio.activeCountFor row.signature →
        p.turn row active attempts now = .ok (p, false) := by
      intro p hp
      rw [turn, recomputeFrom, hp]
      exact if_pos hsame
    rw [settled (portfolio.withRaces races) rfl, settled portfolio rfl]
    rfl
  | false => rw [turn_contended known hsame, if_pos room, calm]

end Portfolio

end HouseStyle
