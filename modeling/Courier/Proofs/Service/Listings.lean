import Courier.Proofs.Interleaving.World
import Courier.Proofs.Store.Batches
import Courier.Service.Api
/-
Listings.  A batch of due rows is the oldest of them, as many as were asked for.  The pages of a listing
cut the selected rows, oldest first, into pieces of one size, so whoever asks for one page after another
is shown each row once.
-/
namespace Courier

variable {κ : Type}

/-- Created earlier, or at the same time under a smaller number. -/
def Row.IsOlder (a b : Row) : Prop :=
  a.createdAt < b.createdAt ∨ a.createdAt = b.createdAt ∧ a.id < b.id

theorem Row.Precedes.isOlder {a b : Row} (h : a.Precedes b) : a.IsOlder b := by
  obtain ⟨hle, hne⟩ := h
  have hid : a.id.value ≠ b.id.value := fun heq => hne (congrArg RowId.mk heq)
  rcases Row.notAfter_iff.1 hle with hearlier | ⟨hsame, hsmaller⟩
  · exact Or.inl hearlier
  · exact Or.inr ⟨Instant.eq_of_position_eq hsame, Int.lt_iff_le_and_ne.2 ⟨hsmaller, hid⟩⟩

/-- The oldest of the rows that a query selects, as many as it asks for. -/
structure Store.IsBatch (store : Store) (query : DueQuery) (batch : List Row) : Prop where
  sorted : batch.Pairwise Row.IsOlder
  selected : ∀ row ∈ batch, row ∈ store.rows ∧ query.selects row = true
  length : batch.length = min query.limit (store.rows.countP query.selects)
  /-- What is left out comes after all that is taken. -/
  rest : ∀ row ∈ store.rows, query.selects row = true → row ∉ batch →
    ∀ taken ∈ batch, taken.IsOlder row

/-- Rows that a filter selects, each of them once, in order. -/
structure Store.Shows (store : Store) (filter : RowFilter) (rows : List Row) : Prop where
  sorted : rows.Pairwise Row.IsOlder
  selected : ∀ row, row ∈ rows ↔ row ∈ store.rows ∧ filter.selects row = true

/-- A filter for one page of the rows that it selects; the first one is page 0. -/
def RowFilter.page (filter : RowFilter) (size number : Nat) : RowFilter :=
  { filter with limit := some size, offset := some (number * size) }

def ListQuery.page (query : ListQuery) (size number : Nat) : ListQuery :=
  { query with limit := some size, offset := some (number * size) }

/-- A request for one page of the messages that a query names. -/
structure Request.IsPage (request : Request) (query : ListQuery) (size number : Nat) : Prop where
  method : request.method = "GET"
  path : request.path = "/messages"
  query : ListQuery.ofQueryString? request.query = some (query.page size number)

theorem length_oldestFirst (rows : List Row) : (oldestFirst rows).length = rows.length :=
  List.length_mergeSort rows

theorem mem_oldestFirst {rows : List Row} {row : Row} : row ∈ oldestFirst rows ↔ row ∈ rows :=
  List.mem_mergeSort

/-- There is one way to put rows with different numbers in order. -/
theorem oldestFirst_eq {rows sorted : List Row} (h : DistinctNumbers rows) (hperm : sorted.Perm rows)
    (hsorted : sorted.Pairwise Row.Precedes) : oldestFirst rows = sorted :=
  List.Perm.eq_of_pairwise (fun _ _ _ _ hab hba => absurd hba hab.asymm) (oldestFirst_sorted h) hsorted
    ((List.mergeSort_perm rows _).trans hperm.symm)

/-- Pages of one size, put one after another. -/
theorem flatMap_pages {α : Type} (items : List α) (size count : Nat) :
    ((List.range count).flatMap fun number => (items.drop (number * size)).take size) =
      items.take (count * size) := by
  induction count with
  | zero => simp
  | succ count ih =>
      rw [List.range_succ, List.flatMap_append, ih, List.flatMap_singleton, Nat.succ_mul,
        List.take_add]

namespace Store

variable {store : Store}

theorem isBatch_due (h : DistinctNumbers store.rows) (query : DueQuery) :
    store.IsBatch query (store.due query) := by
  refine ⟨(due_sorted h).imp Row.Precedes.isOlder, fun row hrow => mem_due hrow, ?_, ?_⟩
  · unfold due
    rw [List.length_take, length_oldestFirst, List.countP_eq_length_filter]
  · intro row hrow hselects hout taken htaken
    have hsorted := oldestFirst_sorted (h.sublist (List.filter_sublist (p := query.selects)))
    have hall : row ∈ oldestFirst (store.rows.filter query.selects) :=
      mem_oldestFirst.2 (List.mem_filter.2 ⟨hrow, hselects⟩)
    unfold due at hout htaken
    rw [← List.take_append_drop query.limit (oldestFirst (store.rows.filter query.selects))]
      at hsorted hall
    obtain ⟨_, _, hparts⟩ := List.pairwise_append.1 hsorted
    exact (hparts taken htaken row ((List.mem_append.1 hall).resolve_left hout)).isOlder

/-- Enough pages show everything. -/
theorem shows_pages (h : DistinctNumbers store.rows) (filter : RowFilter) {size count : Nat}
    (henough : store.rows.countP filter.selects ≤ count * size) :
    store.Shows filter ((List.range count).flatMap fun number => store.find (filter.page size number)) := by
  have hpages : ((List.range count).flatMap fun number => store.find (filter.page size number)) =
      oldestFirst (store.rows.filter filter.selects) := by
    rw [List.countP_eq_length_filter, ← length_oldestFirst] at henough
    exact (flatMap_pages _ size count).trans (List.take_of_length_le henough)
  rw [hpages]
  have hsorted := oldestFirst_sorted (h.sublist (List.filter_sublist (p := filter.selects)))
  refine ⟨hsorted.imp Row.Precedes.isOlder, fun row => ?_⟩
  rw [mem_oldestFirst, List.mem_filter]

/-- Past the last selected row pages are empty. -/
theorem find_page_beyond {filter : RowFilter} {size number : Nat}
    (h : store.rows.countP filter.selects ≤ number * size) :
    store.find (filter.page size number) = [] := by
  have hnone : (oldestFirst (store.rows.filter filter.selects)).drop (number * size) = [] := by
    rw [List.drop_eq_nil_iff, length_oldestFirst, ← List.countP_eq_length_filter]
    exact h
  change ((oldestFirst (store.rows.filter filter.selects)).drop (number * size)).take size = []
  rw [hnone, List.take_nil]

end Store

theorem ListQuery.toFilter_page {query : ListQuery} {filter : RowFilter}
    (h : query.toFilter = .ok filter) {size : Nat} (hsize : size ≤ greatestLimit) (number : Nat) :
    (query.page size number).toFilter = .ok (filter.page size number) := by
  unfold toFilter at h ⊢
  simp only [page]
  cases hstatuses : readOptional (fun text => asBadRequest (readStatuses text)) query.status with
  | error error => simp [hstatuses, bind, Except.bind] at h
  | ok statuses =>
      cases hdelivery : readOptional (fun text => asBadRequest (Delivery.ofText text))
          query.delivery with
      | error error => simp [hstatuses, hdelivery, bind, Except.bind] at h
      | ok delivery =>
          cases hcorrelation : readOptional readCorrelation query.correlationId with
          | error error => simp [hstatuses, hdelivery, hcorrelation, bind, Except.bind] at h
          | ok correlationId =>
              rw [hstatuses, hdelivery, hcorrelation] at h
              cases h
              simp only [bind, Except.bind, pure, Except.pure, Option.getD_some,
                Nat.min_eq_left hsize, RowFilter.page]

namespace Store

variable {store : Store}

/-- The response to a request when nobody else is at work, and the store afterwards. -/
def serve (κ : Type) (store : Store) (manner : Manner) (workers : Nat) (request : Request) :
    Response × Store :=
  Program.run (fun call store => store.respond manner call)
    (Api.answer workers request : Program κ Response) store

/-- A store that does not fail shows what it finds and stays as it is. -/
theorem run_find {α : Type} {manner : Manner} (hmanner : manner.mishap = none) (filter : RowFilter)
    (next : Except StoreError (List Row) → Program κ α) :
    Program.run (fun call store => store.respond manner call) (.ask (.find filter) next) store =
      Program.run (fun call store => store.respond manner call) (next (.ok (store.find filter)))
        store := by
  simp only [Program.run, respond, Manner.onStore_of_none hmanner]

theorem serve_page {query : ListQuery} {filter : RowFilter} (h : query.toFilter = .ok filter)
    {size number : Nat} (hsize : size ≤ ListQuery.greatestLimit) {request : Request}
    (hrequest : request.IsPage query size number) {manner : Manner} (hmanner : manner.mishap = none)
    (workers : Nat) :
    store.serve κ manner workers request =
      (Api.listing (store.find (filter.page size number)), store) := by
  obtain ⟨hmethod, hpath, hquery⟩ := hrequest
  have hpage : Page.at? request.path = some .messages := by
    rw [hpath]
    rfl
  have hanswer : (Api.answer workers request : Program κ Response) =
      Api.respond (Api.messages (query.page size number)) := by
    unfold Api.answer
    rw [hpage, hmethod]
    simp only [String.reduceEq, ↓reduceIte, Api.content, hquery]
  unfold serve
  rw [hanswer]
  unfold Api.messages
  rw [ListQuery.toFilter_page h hsize number]
  exact run_find hmanner _ _

end Store

/-- A batch of due rows is the oldest of those that the query selects, as many as it asks for.  Whoever
asks for pages of one size, up to the longest there is, one after another until nothing more comes, is
shown each row that the filter selects once, oldest first; every response says how many rows it shows. -/
theorem listings_complete (store : Store) (h : DistinctNumbers store.rows) :
    (∀ query : DueQuery, store.IsBatch query (store.due query)) ∧
    ∀ (query : ListQuery) (filter : RowFilter), query.toFilter = .ok filter →
      ∀ size, 1 ≤ size → size ≤ 1000 →
        ∃ pages : Nat → List Row,
          (∀ number request manner workers, request.IsPage query size number →
            manner.mishap = none → ∃ response : Response, response.Lists (pages number) ∧
              store.serve κ manner workers request = (response, store)) ∧
          ∃ last, (∀ number, last ≤ number → pages number = []) ∧
            store.Shows filter ((List.range last).flatMap pages) := by
  refine ⟨Store.isBatch_due h, fun query filter hfilter size hleast hmost => ?_⟩
  refine ⟨fun number => store.find (filter.page size number), ?_, ?_⟩
  · intro number request manner workers hrequest hmanner
    exact ⟨_, Api.listing_lists _, Store.serve_page hfilter hmost hrequest hmanner workers⟩
  · have henough : store.rows.countP filter.selects ≤ store.rows.countP filter.selects * size :=
      Nat.le_mul_of_pos_right _ hleast
    refine ⟨_, fun number hnumber => ?_, Store.shows_pages h filter henough⟩
    exact Store.find_page_beyond (Nat.le_trans henough (Nat.mul_le_mul_right size hnumber))

/-- An order that was placed, as a message for the bus or for its handler, for use in examples. -/
def shelved (number : Int) (delivery : Delivery) (created : Instant) : Row :=
  Row.fresh ⟨number⟩ ⟨⟨Uuid.ofNat 1⟩, "OrderPlacedV1", .null, delivery, ⟨Uuid.ofNat 2⟩, none⟩ created

/-- Three rows, two of them for the bus.  The first one is the youngest. -/
def shelf : Store :=
  { Store.empty with rows := [shelved 1 .outbox (epoch.shift 1000), shelved 2 .internal epoch,
      shelved 3 .outbox epoch] }

def busQuery : ListQuery :=
  { delivery := some "outbox" }

def busFilter : RowFilter :=
  { delivery := some .outbox, limit := some 100, offset := some 0 }

def secondPage : Request :=
  ⟨"GET", "/messages", "delivery_type=outbox&limit=1&offset=1"⟩

/-- Both old rows are due first, and the second page shows the younger one of the two for the bus. -/
theorem shelf_listed :
    DistinctNumbers shelf.rows ∧
      shelf.IsBatch (DueQuery.all epoch 5 10) [shelved 2 .internal epoch, shelved 3 .outbox epoch] ∧
      busQuery.toFilter = .ok busFilter ∧ secondPage.IsPage busQuery 1 1 ∧
      ∃ pages : Nat → List Row,
        (∃ response : Response, response.Lists (pages 1) ∧
          shelf.serve Unit { clock := epoch } 1 secondPage = (response, shelf) ∧
          response = Api.listing [shelved 1 .outbox (epoch.shift 1000)]) ∧
        ∃ last, (∀ number, last ≤ number → pages number = []) ∧
          shelf.Shows busFilter ((List.range last).flatMap pages) := by
  have hdistinct : DistinctNumbers shelf.rows := by
    unfold DistinctNumbers
    decide
  have hfilter : busQuery.toFilter = .ok busFilter := by decide
  have hpage : secondPage.IsPage busQuery 1 1 := ⟨rfl, rfl, by decide +kernel⟩
  have hbatch : shelf.due (DueQuery.all epoch 5 10) =
      [shelved 2 .internal epoch, shelved 3 .outbox epoch] := by
    have hsorted : oldestFirst (shelf.rows.filter (DueQuery.all epoch 5 10).selects) =
        [shelved 2 .internal epoch, shelved 3 .outbox epoch] :=
      oldestFirst_eq (hdistinct.sublist List.filter_sublist) (by decide +kernel)
        (List.pairwise_pair.2 ⟨by decide, by decide⟩)
    unfold Store.due
    rw [hsorted]
    rfl
  have hresponse : (shelf.serve Unit { clock := epoch } 1 secondPage).1 =
      Api.listing [shelved 1 .outbox (epoch.shift 1000)] := by
    have hsorted : oldestFirst (shelf.rows.filter busFilter.selects) =
        [shelved 3 .outbox epoch, shelved 1 .outbox (epoch.shift 1000)] :=
      oldestFirst_eq (hdistinct.sublist List.filter_sublist) (by decide +kernel)
        (List.pairwise_pair.2 ⟨by decide, by decide⟩)
    rw [Store.serve_page hfilter (by decide) hpage rfl 1]
    change Api.listing (((oldestFirst (shelf.rows.filter busFilter.selects)).drop 1).take 1) = _
    rw [hsorted]
    rfl
  obtain ⟨hdue, hpages⟩ := listings_complete (κ := Unit) shelf hdistinct
  obtain ⟨pages, hserve, hwalk⟩ := hpages busQuery busFilter hfilter 1 (by decide) (by decide)
  obtain ⟨response, hlists, hsecond⟩ := hserve 1 secondPage { clock := epoch } 1 hpage rfl
  rw [hsecond] at hresponse
  exact ⟨hdistinct, hbatch ▸ hdue _, hfilter, hpage, pages, ⟨response, hlists, hsecond, hresponse⟩,
    hwalk⟩

end Courier
