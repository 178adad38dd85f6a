import Mathlib.Data.List.AList
import Gregg.Clientd.Protocol

/-!
# What the attached frontends want

Each connection has one entry in the EggPool set and one in the cron set, keyed by its subscriber
id. The order in which a hash map yields its values is that of the list here; nothing read from it
depends on the order.
-/

namespace Gregg.Clientd

/-- One frontend's current EggPool intent. -/
structure EggpoolIntent where
  active : Bool
  period : EggpoolPeriod
  deriving DecidableEq

structure EggpoolIntents where
  entries : AList fun _ : ℕ => EggpoolIntent
  deriving DecidableEq

/-- One frontend's cron-detail intent. -/
structure CronIntent where
  systemId : Option String
  job : Option String
  displayHistory : ℕ
  deriving DecidableEq

/-- `revision` counts the mutations, a departed frontend's removal included. -/
structure CronIntents where
  entries : AList fun _ : ℕ => CronIntent
  revision : ℕ
  deriving DecidableEq

namespace EggpoolIntents

def empty : EggpoolIntents where
  entries := ∅

def get (intents : EggpoolIntents) (id : ℕ) : Option EggpoolIntent :=
  intents.entries.lookup id

/-- Record a subscriber's current intent, returning the previous one. -/
def set (intents : EggpoolIntents) (id : ℕ) (active : Bool) (period : EggpoolPeriod) :
    EggpoolIntents × Option EggpoolIntent :=
  (⟨intents.entries.insert id ⟨active, period⟩⟩, intents.get id)

/-- Drop a disconnected frontend. -/
def remove (intents : EggpoolIntents) (id : ℕ) : EggpoolIntents :=
  ⟨intents.entries.erase id⟩

variable {intents : EggpoolIntents} {id other : ℕ} {active : Bool} {period : EggpoolPeriod}

@[simp]
theorem get_empty : empty.get id = none :=
  AList.lookup_empty id

@[simp]
theorem get_set : (intents.set id active period).1.get id = some ⟨active, period⟩ :=
  AList.lookup_insert _

theorem get_set_ne (distinct : id ≠ other) :
    (intents.set other active period).1.get id = intents.get id :=
  AList.lookup_insert_ne distinct

@[simp]
theorem get_remove : (intents.remove id).get id = none :=
  AList.lookup_erase _ _

theorem get_remove_ne (distinct : id ≠ other) : (intents.remove other).get id = intents.get id :=
  AList.lookup_erase_ne distinct

end EggpoolIntents

namespace CronIntents

def empty : CronIntents where
  entries := ∅
  revision := 0

def get (intents : CronIntents) (id : ℕ) : Option CronIntent :=
  intents.entries.lookup id

def set (intents : CronIntents) (id : ℕ) (intent : CronIntent) :
    CronIntents × Option CronIntent :=
  ({ entries := intents.entries.insert id intent
     revision := satAdd intents.revision 1 }, intents.get id)

def remove (intents : CronIntents) (id : ℕ) : CronIntents where
  entries := intents.entries.erase id
  revision := satAdd intents.revision 1

variable {intents : CronIntents} {id other : ℕ} {intent : CronIntent}

@[simp]
theorem get_empty : empty.get id = none :=
  AList.lookup_empty id

@[simp]
theorem get_set : (intents.set id intent).1.get id = some intent :=
  AList.lookup_insert _

theorem get_set_ne (distinct : id ≠ other) :
    (intents.set other intent).1.get id = intents.get id :=
  AList.lookup_insert_ne distinct

@[simp]
theorem get_remove : (intents.remove id).get id = none :=
  AList.lookup_erase _ _

theorem get_remove_ne (distinct : id ≠ other) : (intents.remove other).get id = intents.get id :=
  AList.lookup_erase_ne distinct

end CronIntents

end Gregg.Clientd
