import TableStore.Proofs.Engine.Session
import TableStore.Proofs.Engine.Version
import TableStore.Proofs.Sql.Literals
import TableStore.Proofs.Sql.Pieces

/-!
# Statements about the version

The two statements about the version of a schema: one returns it, the other one
replaces it and nothing else.  A version from the upper half of its range does not
fit, and zero is stored in its place.
-/

namespace TableStore
namespace Sql

/-!
# Reading the statements
-/

section Pragma

variable {follow : Follow} {tokens : List Token} {command : Command}

theorem takes_pragma (h : Takes follow Command.readPragma tokens command) :
    Takes follow Command.readStatement (.word "PRAGMA" :: tokens) command := by
  have hnot : forall word, word ∈ ["select", "insert", "update", "delete",
      "create", "drop", "alter"] -> NotWord word (some (.word "PRAGMA")) := by
    decide
  unfold Command.readStatement
  apply Takes.notWord _ (fun _ _ => hnot "select" (by decide))
  apply Takes.notWord _ (fun _ _ => hnot "insert" (by decide))
  apply Takes.notWord _ (fun _ _ => hnot "update" (by decide))
  apply Takes.notWord _ (fun _ _ => hnot "delete" (by decide))
  apply Takes.notWord _ (fun _ _ => hnot "create" (by decide))
  apply Takes.notWord _ (fun _ _ => hnot "drop" (by decide))
  apply Takes.notWord _ (fun _ _ => hnot "alter" (by decide))
  exact Takes.tryWord (by decide) h

theorem takes_setVersion (n : Nat) :
    Takes follow Command.readStatement
      [.word "PRAGMA", .word "user_version", .sign "=", .integer n]
      (.setVersion (Command.versionOfDigits false n)) := by
  apply takes_pragma
  apply Takes.word (by decide)
  apply Takes.cons run_trySign_of_token
  intro lexemes rest hlexemes _
  rcases hlexemes.eq_cons with ⟨lexeme, others, rfl, htoken, _, hothers⟩
  have hnot (sign : String) :
      (Reader.trySign sign).run (lexeme :: rest) =
        .ok (false, lexeme :: rest) := by
    apply run_trySign_of_notSign
    rw [next?, List.head?_cons, Option.map_some, htoken]
    intro heq
    cases heq
  rw [hothers.eq_nil, List.singleton_append, if_pos rfl,
    Reader.run_bind (hnot "-")]
  simp only [Bool.not_false, if_true]
  rw [Reader.run_bind (hnot "+"), Reader.run_bind (Reader.run_peek? _),
    List.head?_cons, Option.map_some, htoken]
  rfl

end Pragma

theorem read_version :
    Command.read.run (scan "PRAGMA user_version") = .ok (.version, []) := by
  rfl

theorem read_setVersion (n : Nat) :
    Command.read.run
        (scan ("PRAGMA user_version = " ++ Decimal.natText n)) =
      .ok (.setVersion (Command.versionOfDigits false n), []) := by
  have hends : EndsNumber [] := nofun
  have hnumber := Scans.integer (Decimal.digits_ne_nil n)
    (Decimal.all_isDigit_digits n) hends (Scans.done 0)
  rw [Decimal.ofDigits_digits, List.append_nil] at hnumber
  have hsign := Scans.comparison .eq hnumber
  have hversion : spellsWord "user_version".toList = true := by decide
  have hpragma : spellsWord "PRAGMA".toList = true := by decide
  have hall := Scans.word hpragma (endsWord_cons (by decide) _)
    (Scans.blank (Scans.word hversion (endsWord_cons (by decide) _)
      (Scans.blank hsign)))
  have hscan : Scans 0
      ("PRAGMA user_version = " ++ Decimal.natText n).toList
      [.word "PRAGMA", .word "user_version", .sign "=", .integer n] := by
    simpa [Decimal.natText, Comparison.symbol] using hall
  have hspells := spells_scan ("PRAGMA user_version = " ++ Decimal.natText n)
  rw [map_token_scan hscan] at hspells
  have htakes : Takes (fun _ => True) Command.readStatement _ _ :=
    takes_setVersion n
  exact run_read_of_takes htakes hspells trivial

end Sql

namespace Engine

open Sql (Command)

theorem versionOfDigits_toNat (version : UInt32) :
    Command.versionOfDigits false version.toNat =
      (Machine.storedVersion version).toNat := by
  rw [Command.versionOfDigits, if_neg Bool.false_ne_true, Machine.storedVersion]
  have hpositive : -Decimal.int32Bound <= (version.toNat : Int) := by
    unfold Decimal.int32Bound
    omega
  by_cases hlt : version.toNat < 2147483648
  · have hfits : (version.toNat : Int) < Decimal.int32Bound := by
      unfold Decimal.int32Bound
      omega
    simp [hpositive, hfits, hlt]
  · have hlarge : ¬ (version.toNat : Int) < Decimal.int32Bound := by
      unfold Decimal.int32Bound
      omega
    simp [hlarge, hlt]

variable [Dialect]

namespace Session

theorem perform_readVersion (session : Session Store) :
    session.perform [] .version =
      (session, .ok (Machine.versionRows session.store.version)) := by
  rw [perform, attempt, Store.runWithin_of_none Dialect.excess?_version]
  rcases session with ⟨store, changes, readOnly⟩
  cases readOnly <;> rfl

theorem perform_setVersion_of_writable {session : Session Store}
    (hwritable : session.readOnly = false) (version : Int) :
    session.perform [] (.setVersion version) =
      ({ session with store := session.store.withVersion version }, .ok []) := by
  rw [perform, attempt, Store.runWithin_of_none (Dialect.excess?_setVersion version),
    hwritable]
  rfl

theorem perform_setVersion_of_readOnly {session : Session Store}
    (hreadOnly : session.readOnly = true) (version : Int) :
    session.perform [] (.setVersion version) = (session, .error .readOnly) := by
  rw [perform, attempt, Store.runWithin_of_none (Dialect.excess?_setVersion version),
    hreadOnly]
  rfl

theorem runText_setVersion (session : Session Store) (version : UInt32) :
    session.runText [] ("PRAGMA user_version = " ++ Decimal.natText version.toNat) =
      reported (session.perform []
        (.setVersion (Machine.storedVersion version).toNat)) := by
  have hread := Sql.read_setVersion version.toNat
  rw [versionOfDigits_toNat] at hread
  exact runText_of_read hread session []

end Session

instance : Machine.Versioned where
  read_version session := by
    have hrun := Session.runText_of_read Sql.read_version session []
    rw [Session.perform_readVersion] at hrun
    exact ⟨congrArg (fun done => done.1.store) hrun,
      congrArg (fun done => done.2.map Session.Result.rows) hrun⟩
  set_version session version hwritable := by
    have hrun := Session.runText_setVersion session version
    rw [Session.perform_setVersion_of_writable hwritable] at hrun
    exact ⟨congrArg (fun done => done.1.store) hrun, _, congrArg Prod.snd hrun⟩
  set_version_readOnly session version hreadOnly := by
    have hrun := Session.runText_setVersion session version
    rw [Session.perform_setVersion_of_readOnly hreadOnly] at hrun
    exact ⟨_, congrArg Prod.snd hrun⟩

end Engine
end TableStore
