import TableAccess.Notice
import TableAccess.Row
/-!
# Journals

A journal lists what happened while a session was used: every call on the connection with
what it gave, and every notice, in the order in which they occurred.

Main results:

- Theorems `calls_append` and `notices_append`: the calls and the notices of two journals
  come one after the other.
-/

namespace TableAccess

/-- A call on a connection. -/
inductive Call where
  | begin
  | commit
  | rollback
  | prepare (sql : String)
  | query (sql : String) (parameters : List Value)
  | execute (sql : String) (parameters : List Value)
  | lastInsertId

namespace Call

/-- Whether a call runs a prepared statement. -/
def isRun : Call → Bool
  | query _ _ | execute _ _ => true
  | _ => false

end Call

/-- What a call gave if it did not fail. -/
inductive Reply where
  | done
  | rows (rows : List Row)
  | affected (count : Nat)
  | identifier (id : Int64)

/-- One entry of a journal. -/
inductive Entry where
  | call (call : Call) (reply : Except AccessError Reply)
  | notice (notice : Notice)

namespace Entry

/-- The call of an entry. -/
def call? : Entry → Option Call
  | call c _ => some c
  | notice _ => none

/-- The notice of an entry. -/
def notice? : Entry → Option Notice
  | call _ _ => none
  | notice n => some n

end Entry

/-- What happened, in order. -/
abbrev Journal := List Entry

namespace Journal

/-- The calls of a journal, in order. -/
def calls (journal : Journal) : List Call :=
  journal.filterMap Entry.call?

/-- The notices of a journal, in order. -/
def notices (journal : Journal) : List Notice :=
  journal.filterMap Entry.notice?

/-- The journal of a list of notices. -/
def ofNotices (notices : List Notice) : Journal :=
  notices.map .notice

/-- The calls of two journals come one after the other. -/
@[simp]
theorem calls_append (a b : Journal) : calls (a ++ b) = calls a ++ calls b :=
  List.filterMap_append

/-- The notices of two journals come one after the other. -/
@[simp]
theorem notices_append (a b : Journal) : notices (a ++ b) = notices a ++ notices b :=
  List.filterMap_append

/-- Notices are no calls. -/
@[simp]
theorem calls_ofNotices (ns : List Notice) : calls (ofNotices ns) = [] := by
  induction ns with
  | nil => rfl
  | cons n r ih => simp [calls, ofNotices, Entry.call?]

/-- The notices of a journal of notices. -/
@[simp]
theorem notices_ofNotices (ns : List Notice) : notices (ofNotices ns) = ns := by
  induction ns with
  | nil => rfl
  | cons n r ih => simpa [notices, ofNotices, Entry.notice?] using ih

end Journal

end TableAccess
