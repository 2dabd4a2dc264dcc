import ProgramIndex.Numeral.Bounded

/-!
Notices: what happened on the way to a result. They never change the result.
-/

namespace ProgramIndex

/-- A variable of a file, by the file's number and the variable's number in it. -/
structure FileVar where
  fid : Nat
  vid : Int64
  deriving DecidableEq, Repr

/-- A struct or union of a file, by the file's number and its key in it. -/
structure FileKey where
  fid : Nat
  ckey : Int64
  deriving DecidableEq, Repr

open Numeral (ofNat ofInt64)

def FileVar.text (var : FileVar) : String :=
  "(fid:" ++ ofNat var.fid ++ ",vid:" ++ ofInt64 var.vid ++ ")"

def FileKey.text (key : FileKey) : String :=
  "(fid:" ++ ofNat key.fid ++ ",ckey:" ++ ofInt64 key.ckey ++ ")"

/-- What can happen that somebody may want to know about. -/
inductive Notice where
  | replacedLocal (fid : Nat) (stale current global : Int64)
  | replacedGlobalVar (var : FileVar) (old new : Int64)
  | replacedGlobalKey (key : FileKey) (old new : Int64)
  | functionDefined (name : String) (global : Int64) (fid : Nat)
  | varNotConverted (var : FileVar) (target : Nat) (global : Int64)
  | keyUnknown (key : FileKey)
  | keyNotConverted (key : FileKey) (target : Nat) (global : Int64)
  deriving DecidableEq, Repr

/-- The notice on one line: how grave it is, what happened, and to what. -/
def Notice.line : Notice → String
  | .replacedLocal fid stale current global =>
      "WARN replaced local id of global id fid=" ++ ofNat fid ++ " stale=" ++ ofInt64 stale
        ++ " local=" ++ ofInt64 current ++ " global=" ++ ofInt64 global
  | .replacedGlobalVar var old new =>
      "WARN replaced global vid mapping filevar=" ++ var.text ++ " old=" ++ ofInt64 old
        ++ " new=" ++ ofInt64 new
  | .replacedGlobalKey key old new =>
      "WARN replaced global ckey mapping filekey=" ++ key.text ++ " old=" ++ ofInt64 old
        ++ " new=" ++ ofInt64 new
  | .functionDefined name global fid =>
      "INFO set function definition function=" ++ name ++ " gvid=" ++ ofInt64 global
        ++ " fid=" ++ ofNat fid
  | .varNotConverted var target global =>
      "WARN failed to convert vid varref=" ++ var.text ++ " target=" ++ ofNat target
        ++ " gvid=" ++ ofInt64 global
  | .keyUnknown key => "WARN no global key found for file key filekey=" ++ key.text
  | .keyNotConverted key target global =>
      "WARN target file not found for global key filekey=" ++ key.text ++ " target="
        ++ ofNat target ++ " gckey=" ++ ofInt64 global

/-- A value together with the notices that led to it, oldest first. -/
structure Noted (α : Type) where
  value : α
  notices : List Notice

namespace Noted

instance : Monad Noted where
  pure value := ⟨value, []⟩
  bind first next :=
    let second := next first.value
    ⟨second.value, first.notices ++ second.notices⟩

@[simp] theorem value_bind {α β : Type} (first : Noted α) (next : α → Noted β) :
    (first >>= next).value = (next first.value).value := rfl

end Noted

end ProgramIndex
