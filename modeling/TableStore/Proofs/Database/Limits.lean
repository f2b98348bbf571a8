import TableStore.Proofs.Database.Filters
import TableStore.Proofs.Engine.Limits

/-!
# Selections with a limit

A limit takes the first rows of what the same selection returns without one, up to the
greatest whole number of a cell.  With a greater limit the selection fails.  Rows that
the orderings do not tell apart may stand for each other.
-/

namespace TableStore
namespace Database

open Database.Action (runOn)
open Engine (Arranges Dialect Leads ReadsLarge Record Session Store)
open Statement (Legible PlainLists Unambiguous)

namespace TableHandle

structure Lists (stored : Engine.Table) (options : Options) : Prop where
  plain : PlainLists options
  columns : forall columns, options.columns? = some columns -> stored.Lists columns
  orders : stored.Lists (options.orderBy.map OrderBy.column)

theorem Lists.of_limit {stored : Engine.Table} {options : Options}
    (h : Lists stored options) (limit? : Option UInt64) :
    Lists stored { options with limit? := limit? } :=
  ⟨⟨h.plain.columns_isColumnName, h.plain.orders_isColumnName⟩, h.columns, h.orders⟩

section Dialects

variable [Dialect]

def shownIn (table : TableHandle) (stored : Engine.Table)
    (columns? : Option (List String)) (record : Record) : Row :=
  table.shownRow (stored.projected columns? record)

section Selections

variable {table : TableHandle} {host : Host} {session : Session Store}
  {stored : Engine.Table} {passes : Record -> Bool}

/-- A limit that is allowed takes the first rows of some arrangement. -/
theorem yields_select_of_limit (options : Options)
    (hserves : table.database.Serves host session)
    (h : Legible table.mode table.name options.filter?)
    (hchoice : session.store.choice table.name table.mode options.filter? =
      .ok (stored, passes))
    (hlists : Lists stored options) (limit? : Option UInt64)
    (hadmits : table.Admits (.select { options with limit? := limit? }))
    {allowed? : Option (Option Nat)}
    (hlimit : ((limit?.map UInt64.toNat).map Engine.limitCell).mapM
      Engine.limitOf = .ok allowed?) :
    exists arranged,
      Arranges (stored.sortKeys options.orderBy) (stored.records.filter passes)
        arranged ∧
      table.database.Yields (table.select { options with limit? := limit? }) host
        (.ok ((Engine.takeRows allowed?.join arranged).map
          (table.shownIn stored options.columns?))) session := by
  have hchosen := Statement.chosen_of_choice hchoice []
  rcases Store.select_of_limit hchosen hlists.columns hlists.orders hlimit with
    ⟨arranged, harranged, hselect⟩
  have hyields := table.yields_select_of_ok { options with limit? := limit? } hserves h
    (hlists.of_limit limit?).plain hadmits hselect
  rw [List.map_map] at hyields
  exact ⟨arranged, harranged, hyields⟩

end Selections

/--
Every selection from a table that is there succeeds without a limit, if its statement is
within the limits of the engine.  With a limit below `2 ^ 63` it returns as many of these
rows from the first one on, or all of them if there are no more, and with any other limit
the engine refuses it.
-/
theorem limit_takes_first_below_bound [ReadsLarge] (table : TableHandle)
    (options : Options) (host : Host) (session : Session Store)
    (stored : Engine.Table) (hserves : table.database.Serves host session)
    (hget : session.store.get table.name = .ok stored)
    (hnames : Unambiguous table.mode table.name options.filter?)
    (hknown : stored.Knows options.filter?) (hlists : Lists stored options)
    (hadmits : table.Admits (.select { options with limit? := none })) :
    exists passes arranged,
      session.store.choice table.name table.mode options.filter? =
        .ok (stored, passes) ∧
      Arranges (stored.sortKeys options.orderBy) (stored.records.filter passes)
        arranged ∧
      table.database.Yields (table.select { options with limit? := none }) host
        (.ok (arranged.map (table.shownIn stored options.columns?))) session ∧
      forall limit : UInt64,
        table.Admits (.select { options with limit? := some limit }) ->
        (limit.toNat < 2 ^ 63 -> exists first,
          Leads (stored.sortKeys options.orderBy) arranged limit.toNat first ∧
          table.database.Yields (table.select { options with limit? := some limit })
            host (.ok (first.map (table.shownIn stored options.columns?))) session) ∧
        (2 ^ 63 <= limit.toNat ->
          table.database.Yields (table.select { options with limit? := some limit })
            host (.error (.engine .mismatch)) session) := by
  have hlegible := hnames.toLegible
  rcases Engine.choice_of_knows hknown table.mode with ⟨passes, hpasses⟩
  have hchoice : session.store.choice table.name table.mode options.filter? =
      .ok (stored, passes) := Engine.Store.chosen_eq_ok.mpr ⟨hget, hpasses⟩
  rcases yields_select_of_limit options hserves hlegible hchoice hlists none hadmits
    rfl with
    ⟨arranged, harranged, hall⟩
  refine ⟨passes, arranged, hchoice, harranged, hall, fun limit hadmitted => ?_⟩
  constructor
  · intro hbelow
    have hallowed : ((some limit.toNat).map Engine.limitCell).mapM Engine.limitOf =
        .ok (some (some limit.toNat)) := by
      rw [Option.map_some, Option.mapM_some, Engine.limitOf_of_lt hbelow]
      rfl
    rcases yields_select_of_limit options hserves hlegible hchoice hlists (some limit)
      hadmitted hallowed with ⟨others, hothers, hfirst⟩
    exact ⟨others.take limit.toNat,
      Engine.leads_take harranged hothers limit.toNat, hfirst⟩
  · intro hbound
    have hrefused : ((some limit.toNat).map Engine.limitCell).mapM Engine.limitOf =
        .error .mismatch := by
      rw [Option.map_some, Option.mapM_some,
        Engine.limitOf_of_le hbound limit.toNat_lt]
      rfl
    have hchosen := Statement.chosen_of_choice hchoice []
    exact table.yields_select_of_error { options with limit? := some limit } hserves
      hlegible (hlists.of_limit _).plain hadmitted
      (Store.select_of_refused hchosen hlists.columns hlists.orders hrefused)

end Dialects

section Witness

open Engine.Sqlite

def aboveOneDescending : Options :=
  { Options.ofFilter (some aboveOne) with
    orderBy := [⟨"a", .descending⟩]
    limit? := some 1 }

theorem admits_aboveOneDescending (limit? : Option UInt64)
    (h : limit? ∈ [none, some 1, some 9223372036854775808]) :
    freshTable.Admits (.select { aboveOneDescending with limit? := limit? }) := by
  simp only [List.mem_cons, List.not_mem_nil, or_false] at h
  rcases h with rfl | rfl | rfl <;> exact admits_of_excess? (by decide +kernel)

theorem limit_takes_first_below_bound_of_filledHost :
    exists session stored passes arranged first,
      freshTable.database.Serves filledHost session ∧
      session.store.get freshTable.name = .ok stored ∧
      stored.Knows (some aboveOne) ∧ Lists stored aboveOneDescending ∧
      Arranges (stored.sortKeys aboveOneDescending.orderBy)
        (stored.records.filter passes) arranged ∧
      Leads (stored.sortKeys aboveOneDescending.orderBy) arranged 1 first ∧
      freshTable.database.Yields
        (freshTable.select { aboveOneDescending with limit? := some 1 }) filledHost
        (.ok (first.map (freshTable.shownIn stored none))) session ∧
      freshTable.database.Yields (freshTable.select
          { aboveOneDescending with limit? := some 9223372036854775808 }) filledHost
        (.error (.engine .mismatch)) session := by
  rcases filledHost_serves with ⟨session, stored, hserves, hget, hposition, -, -⟩
  have hlists : Lists stored aboveOneDescending := by
    refine ⟨⟨nofun, ?_⟩, nofun, ?_⟩
    · intro order horder
      rw [List.mem_singleton.mp horder]
      decide
    · intro name hname
      rw [List.mem_singleton.mp hname, hposition]
      rfl
  have hknown := knows_aboveOne hposition
  rcases limit_takes_first_below_bound freshTable aboveOneDescending filledHost
      session stored hserves hget unambiguous_aboveOne hknown hlists
      (admits_aboveOneDescending none (by decide)) with
    ⟨passes, arranged, _, harranged, _, hlimits⟩
  have hone := hlimits 1 (admits_aboveOneDescending (some 1) (by decide))
  rcases hone.left (by decide) with ⟨first, hleads, hfirst⟩
  have hbound := hlimits 9223372036854775808
    (admits_aboveOneDescending (some 9223372036854775808) (by decide))
  exact ⟨session, stored, passes, arranged, first, hserves, hget, hknown, hlists,
    harranged, hleads, hfirst, hbound.right (by decide)⟩

/-- A row comes without a limit, and none with the first limit beyond the bound. -/
theorem greater_limit_refused :
    (runOn (freshTable.select (.ofFilter (some aboveOne))) filledHost).1.toOption.map
        (List.map Row.cells) = some [[("a", .int 2)]] ∧
    (runOn (freshTable.select { Options.ofFilter (some aboveOne) with
        limit? := some 9223372036854775808 }) filledHost).1.toOption = none := by
  constructor <;> decide +kernel

end Witness

end TableHandle
end Database
end TableStore
