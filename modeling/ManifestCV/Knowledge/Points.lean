import ManifestCV.Foundation.Collection
import ManifestCV.Foundation.PdfFile

namespace ManifestCV.Knowledge

open Foundation Foundation.Collection

def headingLength (text : Str) : Option Nat :=
  let hashes := (text.takeWhile (· = '#')).length
  let rest := text.drop hashes
  let spaces := (rest.takeWhile isSpace).length
  if 1 ≤ hashes ∧ hashes ≤ 6 ∧ 1 ≤ spaces then
    some (hashes + spaces + ((rest.drop spaces).takeWhile (· ≠ '\n')).length)
  else none

def headingStarts (position skip : Nat) (lineStart : Bool) : Str → List Nat
  | [] => []
  | c :: rest =>
    match skip with
    | skip + 1 => headingStarts (position + 1) skip (c = '\n') rest
    | 0 =>
      match if lineStart then headingLength (c :: rest) else none with
      | some length => position :: headingStarts (position + 1) (length - 1) (c = '\n') rest
      | none => headingStarts (position + 1) 0 (c = '\n') rest

def sections (content : Str) : List Nat → List Str
  | [] => []
  | [start] => [content.drop start]
  | start :: stop :: rest => (content.drop start).take (stop - start) :: sections content (stop :: rest)

def chunkMarkdown (content : Str) : List Str :=
  match headingStarts 0 0 true content with
  | [] => if (strip content).isEmpty then [] else [strip content]
  | positions => ((sections content positions).map strip).filter (!·.isEmpty)

example : chunkMarkdown "intro\n# A\none\n## B\n\ntwo".toList = ["# A\none".toList, "## B\n\ntwo".toList] :=
  by decide

structure Point where
  id : Str
  userId : Nat
  chunk : Str
  deriving DecidableEq

/-- What `uuid5` hashes; hashes are taken to be distinct. -/
def pointId (userId chunkIndex : Nat) : Str :=
  "career_knowledge:".toList ++ decimal userId ++ ":".toList ++ decimal chunkIndex

def pointsOf (userId : Nat) (chunks : List Str) : List Point :=
  chunks.zipIdx.map fun (chunk, i) => ⟨pointId userId i, userId, chunk⟩

/-- `client.delete` with `_user_filter`. -/
def deleteUser (userId : Nat) (points : List Point) : List Point := points.filter (·.userId ≠ userId)

def upsert (new points : List Point) : List Point :=
  points.filter (fun point => new.all (·.id ≠ point.id)) ++ new

def userPoints (userId : Nat) (points : List Point) : List Point := points.filter (·.userId = userId)

theorem pointId_split (userId chunkIndex : Nat) : pointId userId chunkIndex =
    "career_knowledge:".toList ++ (decimal userId ++ ':' :: decimal chunkIndex) := by
  unfold pointId
  simp only [List.append_assoc]
  congr 1

theorem pointId_user {u v i j : Nat} (same : pointId u i = pointId v j) : u = v := by
  have stop : ∀ chunkIndex c, (':' :: decimal chunkIndex).head? = some c → c.isDigit = false := by
    intro chunkIndex c head
    cases head
    rfl
  rw [pointId_split, pointId_split, List.append_cancel_left_eq] at same
  have read := congrArg Pdf.readNat same
  rwa [Pdf.readNat_decimal u _ (stop i), Pdf.readNat_decimal v _ (stop j)] at read

theorem pointsOf_user {userId : Nat} {chunks : List Str} : ∀ point ∈ pointsOf userId chunks,
    point.userId = userId ∧ ∃ i, point.id = pointId userId i := by
  intro point member
  obtain ⟨⟨chunk, i⟩, _, rfl⟩ := List.mem_map.mp member
  exact ⟨rfl, i, rfl⟩

theorem deleteUser_user (userId : Nat) (points : List Point) :
    userPoints userId (deleteUser userId points) = [] :=
  @ownedBy_without _ _ _ Point.userId _ _

theorem deleteUser_other {u v : Nat} (apart : v ≠ u) (points : List Point) :
    userPoints v (deleteUser u points) = userPoints v points :=
  @ownedBy_without_other _ _ _ Point.userId _ _ _ apart

def Named (points : List Point) : Prop := ∀ point ∈ points, ∃ i, point.id = pointId point.userId i

theorem Named.deleteUser {points : List Point} (named : Named points) (userId : Nat) :
    Named (deleteUser userId points) :=
  fun point member => named point (List.mem_filter.mp member).1

theorem Named.upsert {points : List Point} (named : Named points) (userId : Nat) (chunks : List Str) :
    Named (upsert (pointsOf userId chunks) points) := by
  intro point member
  rcases List.mem_append.mp member with old | new
  · exact named point (List.mem_filter.mp old).1
  · obtain ⟨same, i, id⟩ := pointsOf_user point new
    exact ⟨i, by rw [id, same]⟩

theorem upsert_user {userId : Nat} {points : List Point} (empty : userPoints userId points = [])
    (chunks : List Str) :
    userPoints userId (upsert (pointsOf userId chunks) points) = pointsOf userId chunks :=
  @ownedBy_put_empty _ _ _ _ _ Point.id Point.userId _ _ _ empty fun point member =>
    (pointsOf_user point member).1

theorem upsert_other {u v : Nat} (apart : v ≠ u) {points : List Point} (named : Named points)
    (chunks : List Str) :
    userPoints v (upsert (pointsOf u chunks) points) = userPoints v points := by
  refine @ownedBy_put_other _ _ _ _ _ Point.id Point.userId _ _ _ _ apart (fun point member =>
    (pointsOf_user point member).1) ?_
  intro point member here new inside same
  obtain ⟨_, i, id⟩ := pointsOf_user new inside
  obtain ⟨j, other⟩ := named point member
  rw [id, other] at same
  exact apart (here.symm.trans (pointId_user same).symm)

end ManifestCV.Knowledge
