import YulongHids.Mongo.Aggregate
import YulongHids.Server.Models
import YulongHids.Web.Analyze

/-!
# Searching and paging

`searchInMongo` (`web/controllers/analyze.go`) and `Paginator` (`web/utils/paginator.go`). How MongoDB
reads a match document and an equation is a parameter.
-/

namespace YulongHids.Web

open Golang Mongo Server

/-- A document of the `info` collection. -/
structure Info where
  id : ObjectId
  ip : GoString
  system : GoString
  type : GoString
  data : List Record
  uptime : ℕ

/-- What is left of such a document by a projection. -/
structure InfoHit where
  id : Option ObjectId
  ip : Option GoString
  system : Option GoString
  type : Option GoString
  data : Option (List Record)
  uptime : Option ℕ

/-- A document of the result of a search. -/
inductive Found where
  | info (hit : InfoHit)
  | statistics (doc : StatDoc)

/-- How the store reads what it is asked: match documents on the two collections, and whether a
record meets an equation of a `$filter`. -/
structure MongoServer where
  matchInfo : MatchDoc → Info → Bool
  matchStat : MatchDoc → StatDoc → Bool
  equation : GoString × GoString → Record → Bool

/-- `$project`. The key `type ` of the project document ends with a blank, so the type is dropped. -/
def MongoServer.project (srv : MongoServer) (doc : ProjectDoc) (d : Info) : InfoHit where
  id := (doc.lookup (str "_id")).map fun _ => d.id
  ip := (doc.lookup (str "ip")).map fun _ => d.ip
  system := (doc.lookup (str "system")).map fun _ => d.system
  type := (doc.lookup (str "type")).map fun _ => d.type
  data := (doc.lookup (str "data")).map fun
    | .one => d.data
    | .filter _ _ and => d.data.filter fun r => and.all (srv.equation · r)
  uptime := (doc.lookup (str "uptime")).map fun _ => d.uptime

/-- A limit that is not positive is refused by `$limit`; nothing is found then. -/
def aggregateInfo (srv : MongoServer) (info : Collection Info) (matchQuery : MatchDoc)
    (projectQuery : ProjectDoc) (start limit : ℤ) : List InfoHit :=
  if limit ≤ 0 then []
  else
    let matched := info.filter (srv.matchInfo matchQuery)
    let projected := (slice start.toNat limit.toNat matched).map (srv.project projectQuery)
    sortDesc (fun hit => dateRank hit.uptime) projected

/-- `Statistics.Query`, that is `Find` with the default sort. -/
def queryStatistics (srv : MongoServer) (stats : Statistics) (matchQuery : MatchDoc)
    (start limit : ℤ) : List StatDoc :=
  find stats (srv.matchStat matchQuery) (fun a b => decide (b.uptime ≤ a.uptime)) start.toNat
    limit.natAbs

def searchInMongo (srv : MongoServer) (intQuery : GoString → ℤ × GoString)
    (info : Collection Info) (stats : Statistics) (queryobj : Record) (start limit : ℤ) :
    List Found :=
  let (matchQuery, projectQuery, dbstring) := searchParser intQuery queryobj
  if dbstring = str "Info" then
    (aggregateInfo srv info matchQuery projectQuery start limit).map .info
  else (queryStatistics srv stats matchQuery start limit).map .statistics

structure Paginator where
  pagenum : ℤ
  limit : ℤ

/-- `Paginator.ToParameter`, with the arithmetic of 64 bits. -/
def Paginator.toParameter (pa : Paginator) : ℤ × ℤ :=
  let start := ((pa.pagenum - 1) * pa.limit).bmod (2 ^ 64)
  (if start < 0 then 0 else start, pa.limit)

/-- The answer to one page of a query. -/
def searchPage (srv : MongoServer) (intQuery : GoString → ℤ × GoString) (info : Collection Info)
    (stats : Statistics) (queryobj : Record) (pa : Paginator) : List Found :=
  searchInMongo srv intQuery info stats queryobj pa.toParameter.1 pa.toParameter.2

/-- The answer to a whole query: all matching documents, the newest first. -/
def searchAll (srv : MongoServer) (intQuery : GoString → ℤ × GoString) (info : Collection Info)
    (queryobj : Record) : List Found :=
  let (matchQuery, projectQuery, _) := searchParser intQuery queryobj
  (sortDesc Info.uptime (info.filter (srv.matchInfo matchQuery))).map
    fun d => .info (srv.project projectQuery d)

end YulongHids.Web
