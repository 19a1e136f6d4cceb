import Rmbtd.Library.Decimal

/-!
# Log records

`Logged` is a computation that also writes log records. Nothing a function returns depends on
its records, so a proof about its value works on `Logged.val` alone.
-/

namespace Rmbtd

inductive Level
  | error
  | warn
  | info
  | debug
deriving DecidableEq

/-- A record: the formatted text and the argument of a closing `{:?}`, if there is one. -/
structure LogRecord where
  level : Level
  text : Text
  quoted : Option Text := none
deriving DecidableEq

def connTag (connId : Nat) : Text := "[conn " ++ natText connId ++ "] "

structure Logged (α : Type) where
  val : α
  records : List LogRecord

namespace Logged

variable {α β : Type}

instance : Monad Logged where
  pure a := ⟨a,[]⟩
  bind m f := ⟨(f m.val).val,m.records ++ (f m.val).records⟩

def log (level : Level) (text : Text) : Logged Unit := ⟨(),[⟨level,text,none⟩]⟩

@[simp] theorem val_pure (a : α) : (pure a : Logged α).val = a := rfl

@[simp] theorem val_bind (m : Logged α) (f : α → Logged β) : (m >>= f).val = (f m.val).val := rfl

@[simp] theorem val_ite (c : Prop) [Decidable c] (m n : Logged α) :
    (if c then m else n).val = if c then m.val else n.val := by
  split <;> rfl

end Logged

end Rmbtd
