import PullGauge.Number.Reading
import PullGauge.Text.Percent

/-!
# A search in the parameters of an address

The query, the page, the order and the page size travel as form parameters; those that
have their usual value are left out. A page or a size that is no number reads as the
usual one.
-/

namespace PullGauge

structure PageParams where
  query : Option Text := none
  page : Int := 1
  sort : Text := "updated"
  perPage : Int := 20
  deriving DecidableEq

namespace PageParams

def value? (params : List (Text × Text)) (key : Text) : Option Text :=
  match params.lookup key with
  | some v => if v.isEmpty then none else some v
  | none => none

def integerOr (fallback : Int) (value : Option Text) : Int :=
  (value.bind Reading.integer?).getD fallback

def read (params : List (Text × Text)) : PageParams where
  query := value? params "q"
  page := integerOr 1 (value? params "page")
  sort := (value? params "sort").getD "updated"
  perPage := integerOr 20 (value? params "per_page")

def pairs (p : PageParams) : List (Text × Text) :=
  (match p.query with
   | some q => if q.isEmpty then [] else [("q".toList, q)]
   | none => []) ++
  (if p.page > 1 then [("page".toList, Text.ofInt p.page)] else []) ++
  (if p.sort.isEmpty || p.sort == "updated".toList then [] else [("sort".toList, p.sort)]) ++
  (if p.perPage = 0 ∨ p.perPage = 20 then [] else [("per_page".toList, Text.ofInt p.perPage)])

def write (p : PageParams) : Text := Text.Form.write p.pairs

end PageParams

def defaultQuery (login : Text) : Text :=
  "is:pr author:".toList ++ login ++ " OR is:pr reviewed-by:".toList ++ login

end PullGauge
