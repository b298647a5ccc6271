import FilmOS.Basic
import Mathlib.Algebra.Order.Field.Rat

/-!
# Rows of the business tables

Master data, orders and production tasks as the services read and write them. A row that refers to
master data carries the referenced row where the services load it with the row: an order carries its
product and the product its category, a machine carries the categories and patterns it is linked to.
The references that change in the course of production stay identifiers: the formula and the task of
an order, the machine of a task. Quantities and widths are rationals.
-/

set_option autoImplicit false
set_option relaxedAutoImplicit false

namespace FilmOS

structure ProductCategory where
  id : Id
  name : String
deriving DecidableEq

structure Product where
  id : Id
  name : String
  category : ProductCategory
deriving DecidableEq

structure Pattern where
  id : Id
  name : String
deriving DecidableEq

structure Customer where
  id : Id
  company : String
deriving DecidableEq

structure Formula where
  id : Id
  name : String
  productId : Id
  specParams : Dict String
  materials : String
  sourceId : Option Id
  notes : Option String
deriving DecidableEq

/-- The columns of a machine together with the links its rules read: the identifiers of its
categories and the patterns it can produce. -/
structure Machine where
  id : Id
  name : String
  isActive : Bool
  minWidth : ℚ
  maxWidth : ℚ
  categoryLinks : List Id
  patternLinks : List Pattern
deriving DecidableEq

/-- What an order keeps of the formula it was created with. -/
structure FormulaSnapshot where
  name : String
  specParams : Dict String
  materials : String
deriving DecidableEq

inductive OrderStatus
  | pending
  | producing
  | done
deriving DecidableEq, Repr

structure Order where
  id : Id
  orderNo : String
  customerId : Id
  product : Product
  specParams : Dict String
  quantity : ℚ
  unit : String
  formulaId : Option Id
  formulaSnapshot : Option FormulaSnapshot
  extraNotes : Option String
  status : OrderStatus
  taskId : Option Id
  createdAt : Time
  updatedAt : Time
deriving DecidableEq

inductive TaskStatus
  | waiting
  | producing
  | done
deriving DecidableEq, Repr

structure ProductionTask where
  id : Id
  machineId : Id
  position : ℤ
  status : TaskStatus
  notes : Option String
  updatedAt : Time
deriving DecidableEq

instance : Keyed Id Product := ⟨Product.id⟩
instance : Keyed Id Customer := ⟨Customer.id⟩
instance : Keyed Id Formula := ⟨Formula.id⟩
instance : Keyed Id Machine := ⟨Machine.id⟩
instance : Keyed Id Order := ⟨Order.id⟩
instance : Keyed Id ProductionTask := ⟨ProductionTask.id⟩

@[simp] theorem key_order (order : Order) : Keyed.key order = order.id := rfl
@[simp] theorem key_productionTask (task : ProductionTask) : Keyed.key task = task.id := rfl
@[simp] theorem key_machine (machine : Machine) : Keyed.key machine = machine.id := rfl

/-- An order waits to be planned: it is pending and belongs to no task. -/
def Order.IsPlannable (order : Order) : Prop :=
  order.status = .pending ∧ order.taskId = none

instance (order : Order) : Decidable order.IsPlannable :=
  inferInstanceAs (Decidable (_ ∧ _))

end FilmOS
