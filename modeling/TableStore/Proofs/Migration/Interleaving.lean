import TableStore.Proofs.Migration.Stages

/-!
# Runs at the same time

The transactions of several runs on one database may take place in any order.  A run
looks at the version only once, so it takes no notice of a version that is stored behind
its back, and its last transaction may take the database back from there.
-/

namespace TableStore
namespace Migration

open Database (Handle Host)
open Engine (Machine)
open Runner (Advances)

section Machines

variable [Machine]

structure Race (ι : Type) where
  stages : ι -> Stage
  host : Host

namespace Race

variable {ι : Type}

def start (host : Host) : Race ι :=
  ⟨fun _ => .ready, host⟩

def version? (runner : Runner) (race : Race ι) : Option Int64 :=
  runner.database.version? race.host

def report? (race : Race ι) (name : ι) : Option Report :=
  match race.stages name with
  | .ended (.ok report) => some report
  | _ => none

/--
The next transaction of a run may store a version: as the last one of the run, or as
that of a statement that stores a version of its own.
-/
inductive Stores (targets : ι -> UInt32) (race : Race ι) (name : ι) :
    Int64 -> Prop where
  | target {current : UInt32} :
      race.stages name = .underway current [] ->
      Stores targets race name (Int64.ofInt (targets name).toNat)
  | statement {current : UInt32} {move : Move} {rest : List Move}
      {version : Int64} :
      race.stages name = .underway current (move :: rest) -> move.Stores ->
      Stores targets race name version

variable [DecidableEq ι]

def step (runner : Runner) (targets : ι -> UInt32) (race : Race ι) (name : ι) :
    Race ι :=
  let next := runner.advance (targets name) (race.stages name) race.host
  ⟨Function.update race.stages name next.1, next.2⟩

def after (runner : Runner) (targets : ι -> UInt32) (host : Host)
    (schedule : List ι) : Race ι :=
  schedule.foldl (step runner targets) (start host)

/-- Since a run has read the version, another transaction has stored a certain one. -/
def Overtaken (runner : Runner) (targets : ι -> UInt32) (host : Host)
    (schedule : List ι) (name : ι) (version : Int64) : Prop :=
  exists first middle other last,
    schedule = first ++ name :: (middle ++ other :: last) ∧
    (after runner targets host first).stages name = .ready ∧
    (after runner targets host (first ++ name :: middle)).Stores targets other
      version ∧
    (after runner targets host (first ++ name :: middle ++ [other])).version?
      runner = some version

structure Reads (runner : Runner) (targets : ι -> UInt32) (host : Host)
    (schedule : List ι) (name : ι) (first behind : List ι) : Prop where
  schedule_eq : schedule = first ++ name :: behind
  ready : (after runner targets host first).stages name = .ready

variable {runner : Runner} {targets : ι -> UInt32} {host : Host}
  {schedule : List ι} {name other : ι}

theorem after_append (first second : List ι) :
    after runner targets host (first ++ second) =
      second.foldl (step runner targets) (after runner targets host first) :=
  List.foldl_append

theorem after_concat (schedule : List ι) (name : ι) :
    after runner targets host (schedule ++ [name]) =
      step runner targets (after runner targets host schedule) name :=
  after_append schedule [name]

theorem stages_step_self (race : Race ι) :
    (step runner targets race name).stages name =
      (runner.advance (targets name) (race.stages name) race.host).1 :=
  Function.update_self _ _ _

theorem stages_step_of_ne (race : Race ι) (h : name ≠ other) :
    (step runner targets race other).stages name = race.stages name :=
  Function.update_of_ne h _ _

/-!
# One transaction
-/

section Step

variable [Machine.Lawful] [Machine.Versioned]
  (hbelow : forall name, (targets name).toNat < 2147483648)
  {race : Race ι}

include hbelow

theorem advances_step (runner : Runner) (race : Race ι) (name : ι) :
    runner.Advances (targets name) (race.stages name) (race.version? runner)
      ((step runner targets race name).stages name)
      ((step runner targets race name).version? runner) := by
  rw [stages_step_self]
  exact runner.advances (hbelow name) (race.stages name) race.host

theorem version?_step (race : Race ι) (name : ι) :
    (step runner targets race name).version? runner = race.version? runner ∨
    exists version,
      (step runner targets race name).version? runner = some version ∧
      race.Stores targets name version := by
  have hadvances := advances_step hbelow runner race name
  generalize (step runner targets race name).stages name = stage at hadvances
  generalize (step runner targets race name).version? runner = after? at hadvances
  cases hadvances with
  | reads | ends | keeps => exact .inl rfl
  | stores hstage hstores => exact .inr ⟨_, rfl, .statement hstage hstores⟩
  | arrives hstage => exact .inr ⟨_, rfl, .target hstage⟩

theorem underway_step {current : UInt32} {rest : List Move}
    (h : (step runner targets race other).stages name =
      .underway current rest) :
    (exists before, race.stages name = .underway current before ∧
      rest ⊆ before) ∨
    name = other ∧ race.stages name = .ready ∧
      rest = runner.moves current (targets name) ∧ current < targets name ∧
      exists version,
        (step runner targets race other).version? runner = some version ∧
        version.toInt = current.toNat := by
  by_cases hname : name = other
  · subst hname
    have hadvances := advances_step hbelow runner race name
    rw [h] at hadvances
    generalize (step runner targets race name).version? runner = after?
      at hadvances ⊢
    cases hadvances with
    | reads hready hversion hcurrent hlt =>
        exact .inr ⟨rfl, hready, rfl, hlt, _, hversion, hcurrent⟩
    | keeps hstage _ => exact .inl ⟨_, hstage, List.subset_cons_self _ _⟩
    | stores hstage _ => exact .inl ⟨_, hstage, List.subset_cons_self _ _⟩
  · rw [stages_step_of_ne _ hname] at h
    exact .inl ⟨rest, h, List.Subset.refl rest⟩

end Step

/-!
# All transactions
-/

theorem Reads.concat {first behind : List ι}
    (h : Reads runner targets host schedule name first behind) (next : ι) :
    Reads runner targets host (schedule ++ [next]) name first
      (behind ++ [next]) where
  schedule_eq := by
    rw [h.schedule_eq, List.append_assoc, List.cons_append]
  ready := h.ready

theorem Reads.overtaken {first behind : List ι}
    (h : Reads runner targets host schedule name first behind)
    {version : Int64}
    (hstores : (after runner targets host schedule).Stores targets other
      version)
    (hstored : (after runner targets host (schedule ++ [other])).version?
      runner = some version) :
    Overtaken runner targets host (schedule ++ [other]) name version := by
  refine ⟨first, behind, other, [], ?_, h.ready, ?_, ?_⟩
  · rw [h.schedule_eq, List.append_assoc, List.cons_append]
  · rw [<- h.schedule_eq]
    exact hstores
  · rw [<- h.schedule_eq]
    exact hstored

theorem Overtaken.concat {version : Int64}
    (h : Overtaken runner targets host schedule name version) (next : ι) :
    Overtaken runner targets host (schedule ++ [next]) name version := by
  rcases h with ⟨first, middle, other, last, hschedule, hready, hstores⟩
  refine ⟨first, middle, other, last ++ [next], ?_, hready, hstores⟩
  rw [hschedule]
  simp only [List.append_assoc, List.cons_append]

/--
A run has read a version below its target.  It is still the stored one, or the run has
been overtaken by the transaction that has stored another.
-/
structure Underway (runner : Runner) (targets : ι -> UInt32) (host : Host)
    (schedule : List ι) (name : ι) (current : UInt32) : Prop where
  current_lt : current < targets name
  reads : exists first behind,
    Reads runner targets host schedule name first behind
  found : exists version,
    (after runner targets host schedule).version? runner = some version ∧
    (version.toInt = current.toNat ∨
      Overtaken runner targets host schedule name version)

section Schedule

variable [Machine.Lawful] [Machine.Versioned]
  (hbelow : forall name, (targets name).toNat < 2147483648)
  {current : UInt32} {rest : List Move}

include hbelow

theorem version?_concat (runner : Runner) (host : Host) (schedule : List ι)
    (name : ι) :
    (after runner targets host (schedule ++ [name])).version? runner =
      (after runner targets host schedule).version? runner ∨
    exists version,
      (after runner targets host (schedule ++ [name])).version? runner =
        some version ∧
      (after runner targets host schedule).Stores targets name version := by
  rw [after_concat]
  exact version?_step hbelow _ name

theorem Underway.concat
    (h : Underway runner targets host schedule name current) (next : ι) :
    Underway runner targets host (schedule ++ [next]) name current where
  current_lt := h.current_lt
  reads := by
    rcases h.reads with ⟨first, behind, hreads⟩
    exact ⟨first, _, hreads.concat next⟩
  found := by
    rcases h.found with ⟨version, hversion, hfound⟩
    rcases version?_concat hbelow runner host schedule next with
      hsame | ⟨stored, hstored, hstores⟩
    · rw [hsame]
      exact ⟨version, hversion, hfound.imp_right fun h => h.concat next⟩
    · rcases h.reads with ⟨first, behind, hreads⟩
      exact ⟨stored, hstored, .inr (hreads.overtaken hstores hstored)⟩

theorem underway (schedule : List ι)
    (h : (after runner targets host schedule).stages name =
      .underway current rest) :
    Underway runner targets host schedule name current := by
  induction schedule using List.reverseRecOn generalizing name rest with
  | nil => cases h
  | append_singleton schedule next ih =>
      have hstep := h
      rw [after_concat] at hstep
      rcases underway_step hbelow hstep with
        ⟨before, hbefore, _⟩ |
        ⟨rfl, hready, _, hlt, version, hversion, hcurrent⟩
      · exact (ih hbefore).concat hbelow next
      · rw [<- after_concat] at hversion
        exact ⟨hlt, ⟨schedule, [], rfl, hready⟩, version, hversion,
          .inl hcurrent⟩

theorem mem_moves_of_mem_rest (schedule : List ι)
    (h : (after runner targets host schedule).stages name =
      .underway current rest) : rest ⊆ runner.moves current (targets name) := by
  induction schedule using List.reverseRecOn generalizing name rest with
  | nil => cases h
  | append_singleton schedule next ih =>
      rw [after_concat] at h
      rcases underway_step hbelow h with
        ⟨before, hbefore, hsubset⟩ | ⟨rfl, _, rfl, _⟩
      · exact List.Subset.trans hsubset (ih hbefore)
      · exact List.Subset.refl _

end Schedule

/-!
# Versions that go down
-/

/-- What the next transaction of a run does to the version behind a schedule. -/
structure VersionStep (runner : Runner) (targets : ι -> UInt32) (host : Host)
    (schedule : List ι) (name : ι) : Prop where
  changes :
    (after runner targets host (schedule ++ [name])).version? runner =
      (after runner targets host schedule).version? runner ∨
    exists version,
      (after runner targets host (schedule ++ [name])).version? runner =
        some version ∧
      (after runner targets host schedule).Stores targets name version
  forward : forall current rest,
    (after runner targets host schedule).stages name =
      .underway current rest -> current < targets name
  /-- If it is not that of a statement that stores a version, the run is overtaken. -/
  falls : forall old new : Int64,
    (after runner targets host schedule).version? runner = some old ->
    (after runner targets host (schedule ++ [name])).version? runner =
      some new ->
    new < old ->
    (exists current move rest,
      (after runner targets host schedule).stages name =
        .underway current (move :: rest) ∧ move.Stores) ∨
    (exists current,
      (after runner targets host schedule).stages name =
        .underway current []) ∧
    new.toInt = (targets name).toNat ∧
    Overtaken runner targets host schedule name old
  highest : runner.migrations.KeepVersion ->
    (forall other, targets other <= targets name) ->
    forall old new : Int64,
    (after runner targets host schedule).version? runner = some old ->
    (after runner targets host (schedule ++ [name])).version? runner =
      some new -> old <= new

omit [Machine] in
theorem toInt_ofInt_toNat {version : UInt32} :
    (Int64.ofInt version.toNat).toInt = version.toNat := by
  have hlt := version.toNat_lt
  exact Int64.toInt_ofInt_of_le (by omega) (by omega)

theorem overtaken_of_lt [Machine.Lawful] [Machine.Versioned]
    (hbelow : forall name, (targets name).toNat < 2147483648)
    {old new : Int64}
    (hold : (after runner targets host schedule).version? runner = some old)
    (hnew : (after runner targets host (schedule ++ [name])).version? runner =
      some new)
    (hlt : new < old) :
    (exists current move rest,
      (after runner targets host schedule).stages name =
        .underway current (move :: rest) ∧ move.Stores) ∨
    (exists current,
      (after runner targets host schedule).stages name =
        .underway current []) ∧
    new.toInt = (targets name).toNat ∧
    Overtaken runner targets host schedule name old := by
  rcases version?_concat hbelow runner host schedule name with
    hsame | ⟨version, hversion, hstores⟩
  · rw [hsame, hold] at hnew
    cases hnew
    exact absurd hlt Int64.lt_irrefl
  · rw [hnew] at hversion
    cases hversion
    cases hstores with
    | statement hstage hmove => exact .inl ⟨_, _, _, hstage, hmove⟩
    | @target current hstage =>
        have hunderway := underway hbelow schedule hstage
        rcases hunderway.found with ⟨found, hfound, hread | hovertaken⟩
        · -- What the run has read is below its target, so this is no fall.
          rw [hold] at hfound
          cases hfound
          rw [Int64.lt_iff_toInt_lt, hread, toInt_ofInt_toNat] at hlt
          have hforward := hunderway.current_lt
          rw [UInt32.lt_iff_toNat_lt] at hforward
          omega
        · rw [hold] at hfound
          cases hfound
          exact .inr ⟨⟨current, hstage⟩, toInt_ofInt_toNat, hovertaken⟩

theorem not_lt_of_highest [Machine.Lawful] [Machine.Versioned]
    (hbelow : forall name, (targets name).toNat < 2147483648)
    (hkept : runner.migrations.KeepVersion)
    (hhighest : forall other, targets other <= targets name)
    {old new : Int64}
    (hold : (after runner targets host schedule).version? runner = some old)
    (hnew : (after runner targets host (schedule ++ [name])).version? runner =
      some new) : ¬ new < old := by
  intro hlt
  have hstatement {other : List ι} {someone current move rest}
      (hstage : (after runner targets host other).stages someone =
        .underway current (move :: rest)) : ¬ move.Stores :=
    Runner.not_stores_of_mem_moves hkept
      (mem_moves_of_mem_rest hbelow other hstage (.head _))
  rcases overtaken_of_lt hbelow hold hnew hlt with
    ⟨_, _, _, hstage, hmove⟩ | ⟨_, htarget, hovertaken⟩
  · exact hstatement hstage hmove
  · rcases hovertaken with ⟨_, _, other, _, _, _, hstores, _⟩
    cases hstores with
    | statement hstage hmove => exact hstatement hstage hmove
    | target hstage =>
        -- What has overtaken this run is a target, and none is higher.
        have hother := hhighest other
        rw [Int64.lt_iff_toInt_lt, toInt_ofInt_toNat, htarget] at hlt
        rw [UInt32.le_iff_toNat_le] at hother
        omega

/--
Only the last transaction of a run, or a statement that does so itself, stores a version.
The last transaction of a run takes the version down only if another transaction has
stored one since the run has read it.
-/
theorem version_falls_only_if_overtaken [Machine.Lawful] [Machine.Versioned]
    (runner : Runner) (host : Host)
    (targets : ι -> UInt32)
    (hbelow : forall name, (targets name).toNat < 2147483648)
    (schedule : List ι) (name : ι) :
    VersionStep runner targets host schedule name where
  changes := version?_concat hbelow runner host schedule name
  forward _ _ hstage := (underway hbelow schedule hstage).current_lt
  falls _ _ hold hnew hlt := overtaken_of_lt hbelow hold hnew hlt
  highest hkept hhighest _ _ hold hnew :=
    Int64.not_lt.mp (not_lt_of_highest hbelow hkept hhighest hold hnew)

end Race

end Machines

namespace Race

/-!
# Two runs
-/

def emptyRunner : Runner :=
  ⟨⟨0⟩, ⟨[], by unfold Ascending; decide⟩⟩

def rivals : Bool -> UInt32
  | false => 5
  | true => 10

section Witness

open Engine.Sqlite

theorem version_falls_only_if_overtaken_of_rivals :
    (forall name, (rivals name).toNat < 2147483648) ∧
    exists current,
      (after emptyRunner rivals newHost [false, true, true]).stages false =
        .underway current [] ∧
      Overtaken emptyRunner rivals newHost [false, true, true] false 10 := by
  have hbelow : forall name, (rivals name).toNat < 2147483648 := by
    decide
  have hstep := version_falls_only_if_overtaken emptyRunner newHost rivals
    hbelow [false, true, true] false
  have hold : (after emptyRunner rivals newHost
      [false, true, true]).version? emptyRunner = some 10 := by
    decide +kernel
  have hnew : (after emptyRunner rivals newHost
      [false, true, true, false]).version? emptyRunner = some 5 := by
    decide +kernel
  rcases hstep.falls 10 5 hold hnew (by decide) with
    ⟨_, _, _, hstage, _⟩ | ⟨⟨current, hstage⟩, _, hovertaken⟩
  · cases hstage
  · exact ⟨hbelow, current, hstage, hovertaken⟩

def storingRunner : Runner :=
  ⟨⟨0⟩, ⟨[⟨0, ["PRAGMA user_version = 10"]⟩], by unfold Ascending; decide⟩⟩

/--
Both runs read the version before one of them stores the higher target; the other one
then stores the lower target.  A single run does so to the version of its own batch.
-/
theorem lower_target_stored_last :
    ((after emptyRunner rivals newHost
        [false, true, true]).version? emptyRunner = some 10 ∧
      (after emptyRunner rivals newHost
        [false, true, true, false]).version? emptyRunner = some 5 ∧
      (after emptyRunner rivals newHost
        [false, true, true, false]).report? true = some ⟨0, 10, []⟩ ∧
      (after emptyRunner rivals newHost
        [false, true, true, false]).report? false = some ⟨0, 5, []⟩) ∧
    (after storingRunner (fun _ => 5) newHost
        [(), (), ()]).version? storingRunner = some 10 ∧
    (after storingRunner (fun _ => 5) newHost
        [(), (), (), ()]).version? storingRunner = some 5 ∧
    (after storingRunner (fun _ => 5) newHost
        [(), (), (), ()]).report? () = some ⟨0, 5, [0]⟩ := by
  refine ⟨⟨?_, ?_, ?_, ?_⟩, ?_, ?_, ?_⟩ <;> decide +kernel

end Witness

end Race
end Migration
end TableStore
