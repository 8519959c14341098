import ShareKeeper.Account

/-!
# Accounts with prepared answers

A script prepares answers for some calls: the next call of an operation takes the first cue in the
queue of that operation. A cue lets the account answer, or refuses the call, or replies in its
stead; the last two leave the account as it is.
-/

namespace ShareKeeper

inductive Cue (o : Operation) where
  /-- The account answers. -/
  | genuine
  | refuse (e : ApiError)
  | reply (r : o.Reply)

/-- The prepared answers of every operation. -/
abbrev Script : Type := (o : Operation) → List (Cue o)

namespace Script

/-- Nothing is prepared. -/
def none : Script := fun _ => []

/-- Replaces the queue of one operation. -/
def set (s : Script) (o : Operation) (queue : List (Cue o)) : Script :=
  fun p => if h : o = p then h ▸ queue else s p

end Script

/-- An account and what is prepared. -/
structure Stage where
  account : Account
  script : Script

namespace Stage

/-- An account of which every answer is its own. -/
def genuine (a : Account) : Stage := ⟨a, .none⟩

/-- Answers as the account does. -/
def serveGenuine (r : Request) (s : Stage) : Answer r × Stage :=
  let (answer, account) := Account.serve r s.account
  (answer, { s with account })

/-- Answers by the next cue of the operation, if there is one. -/
def serve : Service Stage := fun r s =>
  match s.script r.operation with
  | [] => serveGenuine r s
  | cue :: rest =>
    let s := { s with script := s.script.set r.operation rest }
    match cue with
    | .genuine => serveGenuine r s
    | .refuse e => (.error e, s)
    | .reply v => (.ok v, s)

end Stage

end ShareKeeper
