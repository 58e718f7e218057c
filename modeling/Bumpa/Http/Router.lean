import Mathlib.Data.List.Basic
import Mathlib.Data.List.DropRight

/-! # Routes of an HTTP server

A path is a list of characters; a pattern is a list of literals and parameters, which match the
segments between its slashes. Literals match in either case, a parameter matches any segment that is
not empty, one more slash may follow. A server has a list of routes, of which the first one counts
that matches a request and handles its method; parameters are percent-encoded.

* `print`: the path with given segments for the parameters of a pattern.
* `matchPath_print`: a pattern matches what is printed with it, with these segments.
* `dispatch_print`: where no two routes overlap, the route that printed a path handles it, with the
  segments it was printed with, if they have plain characters only.
* `urlPathname`: the path that a client requests for a URL, and `urlPathname_print`.
-/
namespace Bumpa.Http
set_option autoImplicit false

/-! ## Percent-encoding -/

def hexValue (c : Char) : Option ℕ :=
  if c.isDigit then some (c.toNat - '0'.toNat)
  else if 'a' ≤ c ∧ c ≤ 'f' then some (c.toNat - 'a'.toNat + 10)
  else if 'A' ≤ c ∧ c ≤ 'F' then some (c.toNat - 'A'.toNat + 10)
  else none

def hexByte (a b : Char) : Option UInt8 := do
  return UInt8.ofNat (16 * (← hexValue a) + (← hexValue b))

/-- The characters that escapes, the last one first, stand for. -/
def unescape : List UInt8 → Option (List Char)
  | [] => some []
  | byte :: bytes => (String.fromUTF8? ⟨(byte :: bytes).reverse.toArray⟩).map (·.toList)

def decodeAfter (bytes : List UInt8) : List Char → Option (List Char)
  | [] => unescape bytes
  | '%' :: a :: b :: rest => (hexByte a b).bind fun byte => decodeAfter (byte :: bytes) rest
  | '%' :: _ => none
  | c :: rest => do return (← unescape bytes) ++ c :: (← decodeAfter [] rest)

def decodeURIComponent (text : List Char) : Option (List Char) := decodeAfter [] text

theorem decode_plain {text : List Char} (h : '%' ∉ text) : decodeURIComponent text = some text := by
  unfold decodeURIComponent
  induction text with
  | nil => rfl
  | cons c rest ih =>
    rw [List.mem_cons, not_or] at h
    have hc : c ≠ '%' := fun heq => h.1 heq.symm
    rw [decodeAfter]
    · rw [ih h.2]
      rfl
    · rintro a b rest' rfl -
      exact hc rfl
    · exact hc

/-! ## Patterns -/

inductive PathSegment where
  | literal (text : String)
  | param (name : String)
  deriving DecidableEq, Repr

/-- Two texts are the same up to the case of ASCII letters. -/
def sameLetters (text text' : List Char) : Bool := text.map Char.toLower = text'.map Char.toLower

abbrev Params := List (String × List Char)

def PathSegment.accepts : PathSegment → List Char → Bool
  | .literal text, segment => sameLetters text.toList segment
  | .param _, segment => segment ≠ []

def PathSegment.binds : PathSegment → List Char → Params
  | .literal _, _ => []
  | .param name, segment => [(name, segment)]

def matchSegments : List PathSegment → List (List Char) → Option Params
  | [], [] => some []
  | [], [[]] => some []
  | head :: pattern, segment :: segments =>
    if head.accepts segment then
      (matchSegments pattern segments).map fun params => head.binds segment ++ params
    else none
  | _, _ => none

/-- The path begins with a slash. -/
def matchPath (pattern : List PathSegment) (path : List Char) : Option Params :=
  match path.splitOn '/' with
  | [] :: segments => matchSegments pattern segments
  | _ => none

def paramNames : List PathSegment → List String
  | [] => []
  | .literal _ :: pattern => paramNames pattern
  | .param name :: pattern => name :: paramNames pattern

/-- The segments of a pattern, with those given for its parameters. -/
def fill : List PathSegment → List (List Char) → List (List Char)
  | [], _ => []
  | .literal text :: pattern, args => text.toList :: fill pattern args
  | .param _ :: pattern, arg :: args => arg :: fill pattern args
  | .param _ :: _, [] => []

def print (pattern : List PathSegment) (args : List (List Char)) : List Char :=
  '/' :: ['/'].intercalate (fill pattern args)

/-- Letters, digits, underscores and hyphens. -/
def isPlainChar (c : Char) : Bool := c.isAlphanum || c = '_' || c = '-'

def isPlain (text : List Char) : Bool := text ≠ [] && text.all isPlainChar

def plainPattern (pattern : List PathSegment) : Bool :=
  pattern ≠ [] && pattern.all fun
    | .literal text => isPlain text.toList
    | .param _ => true

section Plain
variable {text : List Char} {pattern : List PathSegment} {args : List (List Char)}

theorem plain_ne_nil (h : isPlain text = true) : text ≠ [] := by
  rw [isPlain, Bool.and_eq_true] at h
  simpa using h.1

theorem plain_not_mem (h : isPlain text = true) {c : Char} (hc : isPlainChar c = false) :
    c ∉ text := by
  intro hmem
  rw [isPlain, Bool.and_eq_true, List.all_eq_true] at h
  rw [h.2 c hmem] at hc
  cases hc

theorem fill_plain (hpattern : plainPattern pattern = true) (hargs : ∀ arg ∈ args, isPlain arg = true) :
    ∀ segment ∈ fill pattern args, isPlain segment = true := by
  rw [plainPattern, Bool.and_eq_true] at hpattern
  replace hpattern := hpattern.2
  induction pattern generalizing args with
  | nil => exact List.forall_mem_nil _
  | cons segment pattern ih =>
    rw [List.all_cons, Bool.and_eq_true] at hpattern
    cases segment with
    | literal text => exact List.forall_mem_cons.mpr ⟨hpattern.1, ih hargs hpattern.2⟩
    | param name =>
      cases args with
      | nil => exact List.forall_mem_nil _
      | cons arg args =>
        obtain ⟨harg, hargs⟩ := List.forall_mem_cons.mp hargs
        exact List.forall_mem_cons.mpr ⟨harg, ih hargs hpattern.2⟩

theorem fill_ne_nil (hpattern : plainPattern pattern = true)
    (hlength : args.length = (paramNames pattern).length) : fill pattern args ≠ [] := by
  cases pattern with
  | nil => cases hpattern
  | cons segment pattern =>
    cases segment with
    | literal text => exact List.cons_ne_nil _ _
    | param name =>
      cases args with
      | nil => cases hlength
      | cons arg args => exact List.cons_ne_nil _ _

theorem print_splitOn (hpattern : plainPattern pattern = true)
    (hargs : ∀ arg ∈ args, isPlain arg = true)
    (hlength : args.length = (paramNames pattern).length) :
    (print pattern args).splitOn '/' = [] :: fill pattern args := by
  have hplain := fill_plain hpattern hargs
  have hslash : ∀ segment ∈ fill pattern args, '/' ∉ segment := fun segment hmem =>
    plain_not_mem (hplain segment hmem) (by decide)
  have hsplit := List.splitOn_intercalate '/' hslash (fill_ne_nil hpattern hlength)
  have hfirst := List.splitOn_append_cons_self_of_not_mem (a := '/') (List.not_mem_nil)
    (['/'].intercalate (fill pattern args))
  rw [List.nil_append, hsplit] at hfirst
  exact hfirst

theorem matchSegments_fill (hargs : ∀ arg ∈ args, isPlain arg = true)
    (hlength : args.length = (paramNames pattern).length) :
    matchSegments pattern (fill pattern args) = some ((paramNames pattern).zip args) := by
  induction pattern generalizing args with
  | nil => rfl
  | cons segment pattern ih =>
    cases segment with
    | literal text =>
      have hsame : (PathSegment.literal text).accepts text.toList = true := by
        simp [PathSegment.accepts, sameLetters]
      rw [fill, matchSegments, if_pos hsame, ih hargs hlength]
      rfl
    | param name =>
      cases args with
      | nil => cases hlength
      | cons arg args =>
        obtain ⟨harg, hrest⟩ := List.forall_mem_cons.mp hargs
        have hne : (PathSegment.param name).accepts arg = true :=
          decide_eq_true (plain_ne_nil harg)
        rw [fill, matchSegments, if_pos hne, ih hrest (Nat.succ.inj hlength)]
        rfl

theorem matchPath_print (hpattern : plainPattern pattern = true)
    (hargs : ∀ arg ∈ args, isPlain arg = true)
    (hlength : args.length = (paramNames pattern).length) :
    matchPath pattern (print pattern args) = some ((paramNames pattern).zip args) := by
  rw [matchPath, print_splitOn hpattern hargs hlength]
  exact matchSegments_fill hargs hlength

end Plain

/-! ## Routes -/

structure Route (H : Type) where
  verb : String
  pattern : List PathSegment
  handler : H

/-- A HEAD is handled as a GET. -/
def Route.handles {H : Type} (route : Route H) (verb : String) : Bool :=
  verb = route.verb || (verb = "HEAD" && route.verb = "GET")

inductive Dispatch (H : Type) where
  | notFound
  | badRequest
  | found (handler : H) (params : Params)
  deriving Repr

def decodeParams (params : Params) : Option Params :=
  params.mapM fun param => (decodeURIComponent param.2).map fun value => (param.1, value)

/-- A parameter that cannot be decoded ends the search, whatever the method is. -/
def dispatch {H : Type} (verb : String) (path : List Char) : List (Route H) → Dispatch H
  | [] => .notFound
  | route :: routes =>
    match matchPath route.pattern path with
    | none => dispatch verb path routes
    | some raw =>
      match decodeParams raw with
      | none => .badRequest
      | some params =>
        if route.handles verb then .found route.handler params else dispatch verb path routes

def PathSegment.overlaps : PathSegment → PathSegment → Bool
  | .literal text, .literal text' => sameLetters text.toList text'.toList
  | _, _ => true

/-- Some path may match both patterns. -/
def overlaps : List PathSegment → List PathSegment → Bool
  | [], [] => true
  | head :: pattern, head' :: pattern' => head.overlaps head' && overlaps pattern pattern'
  | _, _ => false

def Route.sharesVerb {H : Type} (route route' : Route H) : Bool :=
  route.handles route'.verb || route'.handles route.verb

structure Unambiguous {H : Type} (routes : List (Route H)) : Prop where
  plain : ∀ route ∈ routes, plainPattern route.pattern = true
  separate : routes.Pairwise fun route route' =>
    (route.sharesVerb route' && overlaps route.pattern route'.pattern) = false

section Dispatch
variable {H : Type} {route route' : Route H} {routes : List (Route H)} {verb : String}
  {path : List Char} {pattern pattern' : List PathSegment} {segments : List (List Char)}
  {params params' : Params}

theorem decodeParams_plain (h : ∀ param ∈ params, isPlain param.2 = true) :
    decodeParams params = some params := by
  unfold decodeParams
  induction params with
  | nil => rfl
  | cons param params ih =>
    obtain ⟨hparam, hrest⟩ := List.forall_mem_cons.mp h
    rw [List.mapM_cons, ih hrest, decode_plain (plain_not_mem hparam (by decide))]
    rfl

theorem matchSegments_mem (h : matchSegments pattern segments = some params) :
    ∀ param ∈ params, param.2 ∈ segments := by
  fun_induction matchSegments pattern segments generalizing params with
  | case1 =>
    cases h
    exact List.forall_mem_nil _
  | case2 =>
    cases h
    exact List.forall_mem_nil _
  | case3 head pattern segment segments haccepts ih =>
    obtain ⟨rest, hrest, rfl⟩ := Option.map_eq_some_iff.mp h
    intro param hparam
    rcases List.mem_append.mp hparam with hbinds | hmem
    · cases head with
      | literal text => cases hbinds
      | param name =>
        rw [List.mem_singleton.mp hbinds]
        exact .head _
    · exact List.mem_cons_of_mem _ (ih hrest param hmem)
  | case4 => cases h
  | case5 => cases h

theorem handles_shares (h : route.handles verb = true) (h' : route'.handles verb = true) :
    route.sharesVerb route' = true := by
  simp only [Route.handles, Bool.or_eq_true, Bool.and_eq_true, decide_eq_true_eq] at h h'
  simp only [Route.sharesVerb, Route.handles, Bool.or_eq_true, Bool.and_eq_true, decide_eq_true_eq]
  rcases h with rfl | ⟨rfl, hget⟩
  · exact Or.inr h'
  · rcases h' with hhead | ⟨-, hget'⟩
    · exact Or.inl (Or.inr ⟨hhead.symm, hget⟩)
    · exact Or.inl (Or.inl (hget'.trans hget.symm))

theorem accepted_overlaps {head head' : PathSegment} {segment : List Char}
    (h : head.accepts segment = true) (h' : head'.accepts segment = true) :
    head.overlaps head' = true := by
  cases head with
  | param name => rfl
  | literal text =>
    cases head' with
    | param name' => rfl
    | literal text' =>
      simp only [PathSegment.accepts, PathSegment.overlaps, sameLetters, decide_eq_true_eq] at *
      rw [h, h']

theorem matchSegments_cons {head : PathSegment} {segment : List Char}
    (h : matchSegments (head :: pattern) (segment :: segments) = some params) :
    head.accepts segment = true ∧ ∃ rest, matchSegments pattern segments = some rest := by
  rw [matchSegments] at h
  split at h
  · next haccepts =>
    obtain ⟨rest, hrest, -⟩ := Option.map_eq_some_iff.mp h
    exact ⟨haccepts, rest, hrest⟩
  · cases h

/-- Nothing of a pattern accepts what is after the last slash of a path that ends with one. -/
def Nonempty (pattern : List PathSegment) : Prop := ∀ head ∈ pattern, head.accepts [] = false

theorem plainPattern_nonempty (h : plainPattern pattern = true) : Nonempty pattern := by
  rw [plainPattern, Bool.and_eq_true, List.all_eq_true] at h
  intro head hmem
  cases head with
  | param name => rfl
  | literal text =>
    have hne := plain_ne_nil (h.2 _ hmem)
    simpa [PathSegment.accepts, sameLetters] using hne

theorem matched_overlaps (hpattern : Nonempty pattern) (hpattern' : Nonempty pattern')
    (h : matchSegments pattern segments = some params)
    (h' : matchSegments pattern' segments = some params') : overlaps pattern pattern' = true := by
  fun_induction matchSegments pattern segments generalizing pattern' params params' with
  | case1 =>
    cases pattern' with
    | nil => rfl
    | cons head' pattern' => cases h'
  | case2 =>
    cases pattern' with
    | nil => rfl
    | cons head' pattern' =>
      have haccepts := (matchSegments_cons h').1
      rw [hpattern' head' (.head _)] at haccepts
      cases haccepts
  | case3 head pattern segment segments haccepts ih =>
    obtain ⟨rest, hrest, -⟩ := Option.map_eq_some_iff.mp h
    cases pattern' with
    | nil =>
      cases segment with
      | nil =>
        rw [hpattern head (.head _)] at haccepts
        cases haccepts
      | cons c text => cases h'
    | cons head' pattern' =>
      obtain ⟨haccepts', rest', hrest'⟩ := matchSegments_cons h'
      rw [overlaps, accepted_overlaps haccepts haccepts', Bool.true_and]
      exact ih (fun head hmem => hpattern head (List.mem_cons_of_mem _ hmem))
        (fun head hmem => hpattern' head (List.mem_cons_of_mem _ hmem)) hrest hrest'
  | case4 => cases h
  | case5 => cases h

/-- A request that is handled is handled by a route that matches its path and has its method. -/
theorem dispatch_found {handler : H} (h : dispatch verb path routes = .found handler params) :
    ∃ route ∈ routes, route.handler = handler ∧ route.handles verb = true ∧
      ∃ raw, matchPath route.pattern path = some raw ∧ decodeParams raw = some params := by
  induction routes with
  | nil => cases h
  | cons route routes ih =>
    have hlater : dispatch verb path routes = .found handler params →
        ∃ route' ∈ route :: routes, route'.handler = handler ∧ route'.handles verb = true ∧
          ∃ raw, matchPath route'.pattern path = some raw ∧ decodeParams raw = some params := by
      intro h
      obtain ⟨route', hmem, hroute'⟩ := ih h
      exact ⟨route', List.mem_cons_of_mem _ hmem, hroute'⟩
    rw [dispatch] at h
    split at h
    · exact hlater h
    · next raw hraw =>
      split at h
      · cases h
      · next params' hparams =>
        split at h
        · next hverb =>
          cases h
          exact ⟨route, .head _, rfl, hverb, raw, hraw, hparams⟩
        · exact hlater h

theorem matchPath_mem (h : matchPath pattern path = some params) :
    ∃ segments, path.splitOn '/' = [] :: segments ∧ matchSegments pattern segments = some params := by
  unfold matchPath at h
  split at h
  · next segments hsegments => exact ⟨segments, hsegments, h⟩
  · cases h

/-- The route that printed a path handles it. -/
theorem dispatch_print {args : List (List Char)} (hroutes : Unambiguous routes)
    (hroute : route ∈ routes) (hverb : route.handles verb = true)
    (hargs : ∀ arg ∈ args, isPlain arg = true)
    (hlength : args.length = (paramNames route.pattern).length) :
    dispatch verb (print route.pattern args) routes =
      .found route.handler ((paramNames route.pattern).zip args) := by
  have hplain := hroutes.plain route hroute
  have hown := matchPath_print hplain hargs hlength
  have hsplit := print_splitOn hplain hargs hlength
  -- every parameter that a route takes from this path is plain
  have hdecodes : ∀ pattern raw, matchPath pattern (print route.pattern args) = some raw →
      plainPattern pattern = true → overlaps pattern route.pattern = true ∧
        decodeParams raw = some raw := by
    intro pattern raw hraw hpattern
    obtain ⟨segments, hsegments, hmatch⟩ := matchPath_mem hraw
    rw [hsplit] at hsegments
    cases hsegments
    refine ⟨matched_overlaps (plainPattern_nonempty hpattern)
      (plainPattern_nonempty hplain) hmatch (matchSegments_fill hargs hlength), decodeParams_plain fun param hparam => ?_⟩
    exact fill_plain hplain hargs _ (matchSegments_mem hmatch param hparam)
  induction routes with
  | nil => cases hroute
  | cons first routes ih =>
    have hseparate := List.pairwise_cons.mp hroutes.separate
    rw [dispatch]
    rcases List.mem_cons.mp hroute with rfl | hlater
    · rw [hown]
      simp only [(hdecodes _ _ hown hplain).2, hverb, if_true]
    · have hrest : Unambiguous routes :=
        ⟨fun route hmem => hroutes.plain route (List.mem_cons_of_mem _ hmem), hseparate.2⟩
      cases hraw : matchPath first.pattern (print route.pattern args) with
      | none => exact ih hrest hlater
      | some raw =>
        obtain ⟨hoverlaps, hdecode⟩ := hdecodes _ _ hraw (hroutes.plain first (.head _))
        have hother : first.handles verb = false := by
          cases hfirst : first.handles verb with
          | false => rfl
          | true =>
            have hclash := hseparate.1 route hlater
            rw [handles_shares hfirst hverb, hoverlaps] at hclash
            cases hclash
        simp only [hdecode, hother]
        exact ih hrest hlater

/-! What a route takes from a path has the names of its parameters. -/

theorem matchPath_names (h : matchPath pattern path = some params) :
    params.map Prod.fst = paramNames pattern := by
  obtain ⟨segments, -, hmatch⟩ := matchPath_mem h
  clear h
  fun_induction matchSegments pattern segments generalizing params with
  | case1 =>
    cases hmatch
    rfl
  | case2 =>
    cases hmatch
    rfl
  | case3 head pattern segment segments haccepts ih =>
    obtain ⟨rest, hrest, rfl⟩ := Option.map_eq_some_iff.mp hmatch
    rw [List.map_append, ih hrest]
    cases head <;> rfl
  | case4 => cases hmatch
  | case5 => cases hmatch

theorem decodeParams_names (h : decodeParams params = some params') :
    params'.map Prod.fst = params.map Prod.fst := by
  unfold decodeParams at h
  induction params generalizing params' with
  | nil =>
    cases h
    rfl
  | cons param params ih =>
    simp only [List.mapM_cons, Option.bind_eq_bind, Option.bind_eq_some_iff,
      Option.map_eq_some_iff] at h
    obtain ⟨_, ⟨value, -, rfl⟩, rest, hrest, hparams⟩ := h
    cases hparams
    rw [List.map_cons, List.map_cons, ih hrest]

theorem dispatch_names {handler : H} (h : dispatch verb path routes = .found handler params) :
    ∃ route ∈ routes, route.handler = handler ∧ params.map Prod.fst = paramNames route.pattern := by
  obtain ⟨route, hmem, hhandler, -, raw, hraw, hparams⟩ := dispatch_found h
  exact ⟨route, hmem, hhandler, (decodeParams_names hparams).trans (matchPath_names hraw)⟩

end Dispatch

/-! ## Paths of URLs -/

def hexDigit (n : ℕ) : Char := "0123456789ABCDEF".toList.getD n '0'

/-- The characters that are escaped in a path. -/
def isEscaped (c : Char) : Bool :=
  c ≤ ' ' || '~' < c || c ∈ ['"', '#', '<', '>', '?', '^', '\x60', '{', '}']

def escape (c : Char) : List Char :=
  if isEscaped c then
    c.toString.toUTF8.toList.flatMap fun byte =>
      ['%', hexDigit (byte.toNat / 16), hexDigit (byte.toNat % 16)]
  else [c]

def isSingleDot (segment : List Char) : Bool :=
  segment.map Char.toLower ∈ [".", "%2e"].map (·.toList)

def isDoubleDot (segment : List Char) : Bool :=
  segment.map Char.toLower ∈ ["..", ".%2e", "%2e.", "%2e%2e"].map (·.toList)

/-- The segments that are kept, the last one first. -/
def removeDots (kept : List (List Char)) : List (List Char) → List (List Char)
  | [] => kept.reverse
  | [last] =>
    if isDoubleDot last then ([] :: kept.tail).reverse
    else if isSingleDot last then ([] :: kept).reverse
    else (last :: kept).reverse
  | segment :: segments =>
    if isDoubleDot segment then removeDots kept.tail segments
    else if isSingleDot segment then removeDots kept segments
    else removeDots (segment :: kept) segments

/-- `new URL(base + path).pathname`, for a path that begins with a slash. -/
def urlPathname (path : List Char) : List Char :=
  let trimmed := (path.rdropWhile (· ≤ ' ')).filter (· ∉ ['\t', '\n', '\r'])
  let text := (trimmed.takeWhile (· ∉ ['?', '#'])).map fun c => if c = '\\' then '/' else c
  '/' :: ['/'].intercalate ((removeDots [] (text.splitOn '/').tail).map (·.flatMap escape))

section UrlPathname
variable {pattern : List PathSegment} {args : List (List Char)}

/-- The characters of the paths that are printed. -/
def isPathChar (c : Char) : Bool := isPlainChar c || c = '/'

theorem pathChar_range {c : Char} (h : isPathChar c = true) : ' ' < c ∧ c ≤ '~' := by
  simp only [isPathChar, isPlainChar] at h
  delta Char.isAlphanum Char.isAlpha Char.isUpper Char.isLower at h
  simp only [Char.isDigit, Bool.or_eq_true, Bool.and_eq_true, decide_eq_true_eq, ge_iff_le,
    UInt32.le_iff_toNat_le] at h
  change (((((65 ≤ c.toNat ∧ c.toNat ≤ 90) ∨ (97 ≤ c.toNat ∧ c.toNat ≤ 122)) ∨
    (48 ≤ c.toNat ∧ c.toNat ≤ 57)) ∨ c = '_') ∨ c = '-') ∨ c = '/' at h
  show 32 < c.toNat ∧ c.toNat ≤ 126
  rcases h with (((hletter | hdigit) | rfl) | rfl) | rfl
  · omega
  · omega
  all_goals decide

theorem pathChar_ne {c : Char} (h : isPathChar c = true) (c' : Char) (h' : isPathChar c' = false) :
    c ≠ c' := by
  rintro rfl
  rw [h] at h'
  cases h'

theorem escape_plain {segment : List Char} (h : isPlain segment = true) :
    segment.flatMap escape = segment := by
  rw [isPlain, Bool.and_eq_true, List.all_eq_true] at h
  replace h := h.2
  induction segment with
  | nil => rfl
  | cons c rest ih =>
    obtain ⟨hc, hrest⟩ := List.forall_mem_cons.mp h
    have hchar : isPathChar c = true := by rw [isPathChar, hc, Bool.true_or]
    obtain ⟨hspace, htilde⟩ := pathChar_range hchar
    have hothers : c ∉ ['"', '#', '<', '>', '?', '^', '\x60', '{', '}'] := by
      intro hmem
      have hnone : ['"', '#', '<', '>', '?', '^', '\x60', '{', '}'].all (!isPathChar ·) = true := by
        decide
      have hnot := List.all_eq_true.mp hnone c hmem
      rw [hchar] at hnot
      cases hnot
    have hkept : isEscaped c = false := by
      simp only [isEscaped, Bool.or_eq_false_iff, decide_eq_false_iff_not]
      exact ⟨⟨Char.not_le.mpr hspace, Char.not_lt.mpr htilde⟩, hothers⟩
    rw [List.flatMap_cons, ih hrest, escape, hkept]
    rfl

theorem toLower_plain {c : Char} (h : isPlainChar c = true) : c.toLower ≠ '.' ∧ c.toLower ≠ '%' := by
  have hascii : ∀ n < 127, isPlainChar (Char.ofNat n) = true →
      (Char.ofNat n).toLower ≠ '.' ∧ (Char.ofNat n).toLower ≠ '%' := by decide +kernel
  have hrange : c.toNat ≤ 126 :=
    (pathChar_range (by rw [isPathChar, h, Bool.true_or] : isPathChar c = true)).2
  have hchar := hascii c.toNat (Nat.lt_succ_of_le hrange)
  rw [Char.ofNat_toNat] at hchar
  exact hchar h

/-- What names a directory begins with a dot or an escape. -/
theorem dots_plain {segment : List Char} (h : isPlain segment = true) :
    isDoubleDot segment = false ∧ isSingleDot segment = false := by
  cases segment with
  | nil => exact absurd rfl (plain_ne_nil h)
  | cons c rest =>
    rw [isPlain, Bool.and_eq_true, List.all_cons, Bool.and_eq_true] at h
    obtain ⟨hdot, hpercent⟩ := toLower_plain h.2.1
    constructor
    · simp [isDoubleDot, hdot, hpercent]
    · simp [isSingleDot, hdot, hpercent]

theorem removeDots_plain {kept segments : List (List Char)}
    (h : ∀ segment ∈ segments, isPlain segment = true) :
    removeDots kept segments = kept.reverse ++ segments := by
  induction segments generalizing kept with
  | nil => exact (List.append_nil _).symm
  | cons segment segments ih =>
    obtain ⟨hsegment, hrest⟩ := List.forall_mem_cons.mp h
    obtain ⟨hdouble, hsingle⟩ := dots_plain hsegment
    cases segments with
    | nil => simp [removeDots, hdouble, hsingle]
    | cons next segments =>
      rw [removeDots, hdouble, hsingle]
      · have hkept : removeDots (segment :: kept) (next :: segments) =
            (segment :: kept).reverse ++ next :: segments := ih hrest
        simpa using hkept
      · simp

theorem print_chars (hpattern : plainPattern pattern = true)
    (hargs : ∀ arg ∈ args, isPlain arg = true) : ∀ c ∈ print pattern args, isPathChar c = true := by
  have hjoined : ∀ segments : List (List Char), (∀ segment ∈ segments, isPlain segment = true) →
      ∀ c ∈ ['/'].intercalate segments, isPathChar c = true := by
    intro segments hsegments
    induction segments with
    | nil => exact List.forall_mem_nil _
    | cons segment segments ih =>
      obtain ⟨hsegment, hrest⟩ := List.forall_mem_cons.mp hsegments
      rw [isPlain, Bool.and_eq_true, List.all_eq_true] at hsegment
      have hfirst : ∀ c ∈ segment, isPathChar c = true := fun c hc => by
        rw [isPathChar, hsegment.2 c hc, Bool.true_or]
      cases segments with
      | nil => simpa using hfirst
      | cons next segments =>
        rw [List.intercalate_cons_of_ne_nil (List.cons_ne_nil _ _)]
        intro c hc
        rcases List.mem_append.mp hc with hc | hc
        · rcases List.mem_append.mp hc with hc | hc
          · exact hfirst c hc
          · rw [List.mem_singleton.mp hc]
            rfl
        · exact ih hrest c hc
  intro c hmem
  rcases List.mem_cons.mp hmem with rfl | hmem
  · rfl
  · exact hjoined _ (fill_plain hpattern hargs) c hmem

theorem decode_print (hpattern : plainPattern pattern = true)
    (hargs : ∀ arg ∈ args, isPlain arg = true) :
    decodeURIComponent (print pattern args) = some (print pattern args) :=
  decode_plain fun hmem => pathChar_ne (print_chars hpattern hargs '%' hmem) '%' (by decide) rfl

/-- A path that is printed is requested as it is. -/
theorem urlPathname_print (hpattern : plainPattern pattern = true)
    (hargs : ∀ arg ∈ args, isPlain arg = true)
    (hlength : args.length = (paramNames pattern).length) :
    urlPathname (print pattern args) = print pattern args := by
  have hchars := print_chars hpattern hargs
  have hsplit := print_splitOn hpattern hargs hlength
  have hplain := fill_plain hpattern hargs
  have htrimmed : (print pattern args).rdropWhile (· ≤ ' ') = print pattern args := by
    rw [List.rdropWhile_eq_self_iff]
    intro hne
    simpa using (pathChar_range (hchars _ (List.getLast_mem hne))).1
  have hfiltered : (print pattern args).filter (· ∉ ['\t', '\n', '\r']) = print pattern args := by
    refine List.filter_eq_self.mpr fun c hc => ?_
    simp [pathChar_ne (hchars c hc) '\t' rfl, pathChar_ne (hchars c hc) '\n' rfl,
      pathChar_ne (hchars c hc) '\r' rfl]
  have htaken : (print pattern args).takeWhile (· ∉ ['?', '#']) = print pattern args := by
    refine List.takeWhile_eq_self_iff.mpr fun c hc => ?_
    simp [pathChar_ne (hchars c hc) '?' rfl, pathChar_ne (hchars c hc) '#' rfl]
  have hmapped : (print pattern args).map (fun c => if c = '\\' then '/' else c) =
      print pattern args := by
    refine (List.map_congr_left fun c hc => ?_).trans (List.map_id' _)
    exact if_neg (pathChar_ne (hchars c hc) '\\' rfl)
  have hescaped : (fill pattern args).map (·.flatMap escape) = fill pattern args :=
    (List.map_congr_left fun segment hmem => escape_plain (hplain segment hmem)).trans
      (List.map_id' _)
  simp only [urlPathname]
  rw [htrimmed, hfiltered, htaken, hmapped, hsplit, List.tail_cons, removeDots_plain hplain,
    List.reverse_nil, List.nil_append, hescaped]
  rfl

end UrlPathname

end Bumpa.Http
