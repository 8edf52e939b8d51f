import Scaffold.Settings
import Scaffold.Store.Controller

/-!
# Sample models

The models and controllers of a small schema: users, whose key is one number, and the lines of
orders, whose key is made of two.
-/

namespace Scaffold.Sample

/-- A user. -/
structure User where
  id : Int32
  name : String
  email : String
  deriving DecidableEq

instance : Keyed User Int32 where
  key u := u.id
  takeOver u v := { u with name := v.name, email := v.email }

/-- A line of an order. -/
structure OrderLine where
  orderId : Int64
  lineNo : Int16
  product : String
  quantity : Int32
  deriving DecidableEq

instance : Keyed OrderLine (Int64 × Int16) where
  key l := (l.orderId, l.lineNo)
  takeOver l m := { l with product := m.product, quantity := m.quantity }

/-- The route of an entity's controller. -/
def route (entity : String) : String :=
  ({} : ApiSettings).routePrefix ++ Naming.snakeCase entity

end Scaffold.Sample
