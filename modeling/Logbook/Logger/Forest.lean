import Logbook.Level.Basic
import Logbook.Table

/-!
# Forests of loggers

Loggers stand in a list in the order of their making, so a child comes after its parent. Handles
name them; a logger lives while a handle does or a record of its own is being made, and a parent
does not keep its children alive. A level set on a logger reaches the living children that follow
it, and theirs in turn.
-/

namespace Logbook

/-- One logger of a forest, with whatever else belongs to it as `settings`. -/
structure Instance (α : Type) where
  level : Level
  follows : Bool := true
  children : List Nat := []
  settings : α

structure Forest (α : Type) where
  instances : List (Instance α) := []
  handles : Table String Nat := {}
  /-- The loggers whose records are being made, the innermost first. -/
  busy : List Nat := []

namespace Forest

variable {α : Type}

def find? (forest : Forest α) (handle : String) : Option Nat := forest.handles.find? handle

def instance? (forest : Forest α) (index : Nat) : Option (Instance α) := forest.instances[index]?

def settings? (forest : Forest α) (index : Nat) : Option α :=
  (forest.instance? index).map Instance.settings

def level? (forest : Forest α) (index : Nat) : Option Level :=
  (forest.instance? index).map Instance.level

/-- The living loggers; one may occur more than once. -/
def living (forest : Forest α) : List Nat := forest.handles.values ++ forest.busy

def isLive (forest : Forest α) (index : Nat) : Bool := forest.living.contains index

def children (forest : Forest α) (index : Nat) : List Nat :=
  match forest.instance? index with
  | some logger => logger.children
  | none => []

def isFollower (forest : Forest α) (index : Nat) : Bool :=
  match forest.instance? index with
  | some logger => logger.follows
  | none => false

def liveChildren (forest : Forest α) (index : Nat) : List Nat :=
  (forest.children index).filter forest.isLive

/-- The children that a level set on the logger goes on to. -/
def followers (forest : Forest α) (index : Nat) : List Nat :=
  (forest.liveChildren index).filter forest.isFollower

/-- The loggers that a level visits from one on, parents before their children; `depth` bounds the
generations. -/
def visit (forest : Forest α) : Nat → Nat → List Nat
  | 0, _ => []
  | depth + 1, index => index :: (forest.followers index).flatMap (forest.visit depth)

/-- The loggers that a level set on one of them reaches. There are no more generations than
loggers. -/
def reach (forest : Forest α) (index : Nat) : List Nat :=
  forest.visit forest.instances.length index

def modify (forest : Forest α) (index : Nat) (change : Instance α → Instance α) : Forest α :=
  { forest with instances := forest.instances.modify index change }

def modifySettings (forest : Forest α) (index : Nat) (change : α → α) : Forest α :=
  forest.modify index fun logger => { logger with settings := change logger.settings }

/-- A logger that a level has reached: it takes the level and forgets children that have died. -/
def settle (forest : Forest α) (level : Level) (logger : Instance α) : Instance α :=
  { logger with level, children := logger.children.filter forest.isLive }

/-- Sets the level of a logger, which no longer follows its parent, and of all that it reaches. -/
def setLevel (forest : Forest α) (index : Nat) (level : Level) : Forest α :=
  let reached := forest.reach index
  let instances := forest.instances.mapIdx fun place logger =>
    if place ∈ reached then
      { forest.settle level logger with follows := logger.follows && place ≠ index }
    else logger
  { forest with instances }

def plant (forest : Forest α) (handle : String) (level : Level) (settings : α) : Forest α :=
  { forest with
    instances := forest.instances ++ [{ level, settings }]
    handles := forest.handles.insert handle forest.instances.length }

def branch (forest : Forest α) (handle : String) (parent : Nat) (settings : α) : Forest α :=
  match forest.level? parent with
  | none => forest
  | some level =>
      let child := forest.instances.length
      (forest.modify parent fun logger =>
        { logger with children := logger.children ++ [child] }).plant handle level settings

def share (forest : Forest α) (handle : String) (index : Nat) : Forest α :=
  { forest with handles := forest.handles.insert handle index }

def drop (forest : Forest α) (handle : String) : Forest α :=
  { forest with handles := forest.handles.erase handle }

/-- The forest while a record of the logger is being made. -/
def enter (forest : Forest α) (index : Nat) : Forest α :=
  { forest with busy := index :: forest.busy }

def leave (forest : Forest α) : Forest α := { forest with busy := forest.busy.tail }

theorem leave_enter (forest : Forest α) (index : Nat) : (forest.enter index).leave = forest := rfl

def levels (forest : Forest α) : List (String × Level) :=
  forest.handles.entries.filterMap fun entry =>
    (forest.level? entry.2).map fun level => (entry.1, level)

end Forest

end Logbook
