import AfterAction.Text.Quoted

/-!
What is known of a background task that crashed: its number and its last words.
-/

namespace AfterAction

def crashReport (task : Nat) (message : String) : String :=
  "task " ++ toString task ++ " panicked with message " ++ Text.quote message

end AfterAction
