import Bumpa.Http.Router

/-! # Routes of the gateway and of the services

`GatewayController` forwards requests to the services: who calls a guarded method needs the key, and
a parameter of a path is one of `SAFE_ID_PATTERN`, as it becomes part of the path that is requested
of the service. Bodies and queries are left out, but for whether their DTOs accept them; so is the
documentation.

* `forwarded_handled`: whatever a path is, what is forwarded for it is handled by the method of the
  service that the method of the gateway stands for, with the same parameters.
* `reached_iff`: which methods of the services are reached from outside, and with which parameters.
-/
namespace Bumpa.Gateway
open Bumpa.Http
set_option autoImplicit false

inductive MicroserviceName where
  | purchase
  | loyalty
  | cashback
  deriving DecidableEq, Repr

/-- The methods of the controllers of the services. -/
inductive Endpoint where
  | purchaseHealth
  | create
  | loyaltyHealth
  | getAchievementState
  | getCatalog
  | listGroups
  | createGroup
  | updateGroup
  | listAchievements
  | createAchievement
  | updateAchievement
  | listBadges
  | createBadge
  | updateBadge
  | cashbackHealth
  | list
  | retry
  | handleWebhook
  | listBanks
  deriving DecidableEq, Repr

def Endpoint.route (endpoint : Endpoint) : Route Endpoint :=
  match endpoint with
  | .purchaseHealth => ⟨"GET", [.literal "health"], endpoint⟩
  | .create => ⟨"POST", [.literal "purchases"], endpoint⟩
  | .loyaltyHealth => ⟨"GET", [.literal "health"], endpoint⟩
  | .getAchievementState =>
    ⟨"GET", [.literal "internal", .literal "users", .param "userId", .literal "achievements"], endpoint⟩
  | .getCatalog => ⟨"GET", [.literal "admin", .literal "catalog"], endpoint⟩
  | .listGroups => ⟨"GET", [.literal "admin", .literal "achievement-groups"], endpoint⟩
  | .createGroup => ⟨"POST", [.literal "admin", .literal "achievement-groups"], endpoint⟩
  | .updateGroup =>
    ⟨"PATCH", [.literal "admin", .literal "achievement-groups", .param "key"], endpoint⟩
  | .listAchievements => ⟨"GET", [.literal "admin", .literal "achievements"], endpoint⟩
  | .createAchievement => ⟨"POST", [.literal "admin", .literal "achievements"], endpoint⟩
  | .updateAchievement =>
    ⟨"PATCH", [.literal "admin", .literal "achievements", .param "id"], endpoint⟩
  | .listBadges => ⟨"GET", [.literal "admin", .literal "badges"], endpoint⟩
  | .createBadge => ⟨"POST", [.literal "admin", .literal "badges"], endpoint⟩
  | .updateBadge => ⟨"PATCH", [.literal "admin", .literal "badges", .param "id"], endpoint⟩
  | .cashbackHealth => ⟨"GET", [.literal "health"], endpoint⟩
  | .list => ⟨"GET", [.literal "cashbacks"], endpoint⟩
  | .retry => ⟨"POST", [.literal "cashbacks", .param "id", .literal "retry"], endpoint⟩
  | .handleWebhook => ⟨"POST", [.literal "webhooks", .literal "paystack"], endpoint⟩
  | .listBanks => ⟨"GET", [.literal "banks"], endpoint⟩

def MicroserviceName.endpoints : MicroserviceName → List Endpoint
  | .purchase => [.purchaseHealth, .create]
  | .loyalty => [.loyaltyHealth, .getAchievementState, .getCatalog, .listGroups, .createGroup,
      .updateGroup, .listAchievements, .createAchievement, .updateAchievement, .listBadges,
      .createBadge, .updateBadge]
  | .cashback => [.cashbackHealth, .list, .retry, .handleWebhook, .listBanks]

def MicroserviceName.routes (service : MicroserviceName) : List (Route Endpoint) :=
  service.endpoints.map Endpoint.route

/-- The methods of `HealthController` and of `GatewayController`. -/
inductive Handler where
  | getHealth
  | createPurchase
  | listBanks
  | getAchievements
  | getAchievementGroups
  | createAchievementGroup
  | updateAchievementGroup
  | getAchievementConfigs
  | getLoyaltyCatalog
  | createAchievementConfig
  | updateAchievementConfig
  | getBadgeConfigs
  | createBadgeConfig
  | updateBadgeConfig
  | listCashbacks
  | retryCashback
  | handlePaystackWebhook
  deriving DecidableEq, Repr

def Handler.route (handler : Handler) : Route Handler :=
  match handler with
  | .getHealth => ⟨"GET", [.literal "health"], handler⟩
  | .createPurchase => ⟨"POST", [.literal "purchases"], handler⟩
  | .listBanks => ⟨"GET", [.literal "banks"], handler⟩
  | .getAchievements =>
    ⟨"GET", [.literal "users", .param "userId", .literal "achievements"], handler⟩
  | .getAchievementGroups => ⟨"GET", [.literal "admin", .literal "achievement-groups"], handler⟩
  | .createAchievementGroup => ⟨"POST", [.literal "admin", .literal "achievement-groups"], handler⟩
  | .updateAchievementGroup =>
    ⟨"PATCH", [.literal "admin", .literal "achievement-groups", .param "key"], handler⟩
  | .getAchievementConfigs => ⟨"GET", [.literal "admin", .literal "achievements"], handler⟩
  | .getLoyaltyCatalog => ⟨"GET", [.literal "admin", .literal "catalog"], handler⟩
  | .createAchievementConfig => ⟨"POST", [.literal "admin", .literal "achievements"], handler⟩
  | .updateAchievementConfig =>
    ⟨"PATCH", [.literal "admin", .literal "achievements", .param "id"], handler⟩
  | .getBadgeConfigs => ⟨"GET", [.literal "admin", .literal "badges"], handler⟩
  | .createBadgeConfig => ⟨"POST", [.literal "admin", .literal "badges"], handler⟩
  | .updateBadgeConfig => ⟨"PATCH", [.literal "admin", .literal "badges", .param "id"], handler⟩
  | .listCashbacks => ⟨"GET", [.literal "cashbacks"], handler⟩
  | .retryCashback => ⟨"POST", [.literal "cashbacks", .param "id", .literal "retry"], handler⟩
  | .handlePaystackWebhook => ⟨"POST", [.literal "webhooks", .literal "paystack"], handler⟩

def handlers : List Handler :=
  [.getHealth, .createPurchase, .listBanks, .getAchievements, .getAchievementGroups,
    .createAchievementGroup, .updateAchievementGroup, .getAchievementConfigs, .getLoyaltyCatalog,
    .createAchievementConfig, .updateAchievementConfig, .getBadgeConfigs, .createBadgeConfig,
    .updateBadgeConfig, .listCashbacks, .retryCashback, .handlePaystackWebhook]

def gatewayRoutes : List (Route Handler) := handlers.map Handler.route

/-- `@UseGuards(ApiKeyGuard)`. -/
def Handler.guarded : Handler → Bool
  | .getHealth => false
  | .createPurchase => false
  | .listBanks => false
  | .getAchievements => false
  | .handlePaystackWebhook => false
  | _ => true

/-- `ApiKeyGuard.canActivate`; an environment without the variable is one with an empty one. -/
def canActivate (adminApiKey providedKey : Option String) : Bool :=
  let expectedKey := adminApiKey.getD ""
  expectedKey ≠ "" && providedKey.any fun key => key ≠ "" && key = expectedKey

/-- `/^[a-zA-Z0-9_-]+$/` -/
def SAFE_ID_PATTERN (text : List Char) : Bool := isPlain text

structure ForwardRequest where
  service : MicroserviceName
  method : String
  path : List Char
  deriving DecidableEq, Repr

def readParam (params : Params) (name : String) : List Char := (params.lookup name).getD []

/-- What a method passes to `forward` or `forwardRaw`. -/
def Handler.forward (params : Params) : Handler → Option ForwardRequest
  | .getHealth => none
  | .createPurchase => some ⟨.purchase, "POST", "/purchases".toList⟩
  | .listBanks => some ⟨.cashback, "GET", "/banks".toList⟩
  | .getAchievements => some ⟨.loyalty, "GET",
      "/internal/users/".toList ++ readParam params "userId" ++ "/achievements".toList⟩
  | .getAchievementGroups => some ⟨.loyalty, "GET", "/admin/achievement-groups".toList⟩
  | .createAchievementGroup => some ⟨.loyalty, "POST", "/admin/achievement-groups".toList⟩
  | .updateAchievementGroup => some ⟨.loyalty, "PATCH",
      "/admin/achievement-groups/".toList ++ readParam params "key"⟩
  | .getAchievementConfigs => some ⟨.loyalty, "GET", "/admin/achievements".toList⟩
  | .getLoyaltyCatalog => some ⟨.loyalty, "GET", "/admin/catalog".toList⟩
  | .createAchievementConfig => some ⟨.loyalty, "POST", "/admin/achievements".toList⟩
  | .updateAchievementConfig => some ⟨.loyalty, "PATCH",
      "/admin/achievements/".toList ++ readParam params "id"⟩
  | .getBadgeConfigs => some ⟨.loyalty, "GET", "/admin/badges".toList⟩
  | .createBadgeConfig => some ⟨.loyalty, "POST", "/admin/badges".toList⟩
  | .updateBadgeConfig => some ⟨.loyalty, "PATCH",
      "/admin/badges/".toList ++ readParam params "id"⟩
  | .listCashbacks => some ⟨.cashback, "GET", "/cashbacks".toList⟩
  | .retryCashback => some ⟨.cashback, "POST",
      "/cashbacks/".toList ++ readParam params "id" ++ "/retry".toList⟩
  | .handlePaystackWebhook => some ⟨.cashback, "POST", "/webhooks/paystack".toList⟩

/-- `accepted`: the body and the query are what their DTOs say. -/
structure Request where
  verb : String
  path : List Char
  apiKey : Option String
  accepted : Bool
  deriving Repr

inductive Answer where
  | status (code : ℕ)
  | health
  | forwards (request : ForwardRequest)
  deriving DecidableEq, Repr

/-- The middleware for every path (`forRoutes('*')`) has it decoded. Guards come before pipes. -/
def handle (adminApiKey : Option String) (req : Request) : Answer :=
  if (decodeURIComponent req.path).isNone then .status 400
  else
    match dispatch req.verb req.path gatewayRoutes with
    | .notFound => .status 404
    | .badRequest => .status 400
    | .found handler params =>
      if handler.guarded && !canActivate adminApiKey req.apiKey then .status 401
      else if !(params.all fun param => SAFE_ID_PATTERN param.2) || !req.accepted then .status 400
      else (handler.forward params).elim .health .forwards

/-! ## What is forwarded -/

/-- The method of a service that a method of the gateway stands for. -/
def Handler.endpoint : Handler → Option Endpoint
  | .getHealth => none
  | .createPurchase => some .create
  | .listBanks => some .listBanks
  | .getAchievements => some .getAchievementState
  | .getAchievementGroups => some .listGroups
  | .createAchievementGroup => some .createGroup
  | .updateAchievementGroup => some .updateGroup
  | .getAchievementConfigs => some .listAchievements
  | .getLoyaltyCatalog => some .getCatalog
  | .createAchievementConfig => some .createAchievement
  | .updateAchievementConfig => some .updateAchievement
  | .getBadgeConfigs => some .listBadges
  | .createBadgeConfig => some .createBadge
  | .updateBadgeConfig => some .updateBadge
  | .listCashbacks => some .list
  | .retryCashback => some .retry
  | .handlePaystackWebhook => some .handleWebhook

theorem gatewayRoutes_unambiguous : Unambiguous gatewayRoutes := by
  constructor
  · decide +kernel
  · decide +kernel

theorem routes_unambiguous (service : MicroserviceName) : Unambiguous service.routes := by
  cases service
  all_goals
    constructor
    · decide +kernel
    · decide +kernel

theorem mem_handlers (handler : Handler) : handler ∈ handlers := by
  cases handler <;> decide

/-- A method requests the path of the method that it stands for. -/
theorem forward_print {handler : Handler} {params : Params} {r : ForwardRequest}
    (hnames : params.map Prod.fst = paramNames handler.route.pattern)
    (h : handler.forward params = some r) :
    ∃ endpoint ∈ r.service.endpoints, handler.endpoint = some endpoint ∧
      endpoint.route.verb = r.method ∧ paramNames endpoint.route.pattern = params.map Prod.fst ∧
        r.path = print endpoint.route.pattern (params.map Prod.snd) := by
  have hone : ∀ {name}, params.map Prod.fst = [name] → ∃ value, params = [(name, value)] := by
    intro name hname
    obtain ⟨⟨name', value⟩, rfl, rfl⟩ := List.map_eq_singleton_iff.mp hname
    exact ⟨value, rfl⟩
  cases handler
  case getHealth => cases h
  case getAchievements | updateAchievementGroup | updateAchievementConfig | updateBadgeConfig |
      retryCashback =>
    cases h
    obtain ⟨value, rfl⟩ := hone hnames
    exact ⟨_, by simp [MicroserviceName.endpoints], rfl, rfl, rfl,
      by simp [print, fill, readParam, Endpoint.route, List.intercalate_cons_cons]⟩
  all_goals
    cases h
    obtain rfl := List.map_eq_nil_iff.mp hnames
    exact ⟨_, by decide, rfl, rfl, rfl, by decide⟩

theorem mem_routes {service : MicroserviceName} {endpoint : Endpoint}
    (h : endpoint ∈ service.endpoints) : endpoint.route ∈ service.routes :=
  List.mem_map_of_mem h

theorem route_handler (endpoint : Endpoint) : endpoint.route.handler = endpoint := by
  cases endpoint <;> rfl

theorem handler_route (handler : Handler) : handler.route.handler = handler := by
  cases handler <;> rfl

theorem zip_params (params : Params) :
    (params.map Prod.fst).zip (params.map Prod.snd) = params := by
  induction params with
  | nil => rfl
  | cons param params ih => rw [List.map_cons, List.map_cons, List.zip_cons_cons, ih]

/-- What is forwarded is handled by the method that is meant. -/
theorem forward_handled {handler : Handler} {params : Params} {r : ForwardRequest}
    (hnames : params.map Prod.fst = paramNames handler.route.pattern)
    (hplain : ∀ param ∈ params, isPlain param.2 = true) (h : handler.forward params = some r) :
    ∃ endpoint, handler.endpoint = some endpoint ∧
      dispatch r.method (urlPathname r.path) r.service.routes = .found endpoint params := by
  obtain ⟨endpoint, hmem, hendpoint, hverb, hparams, hpath⟩ := forward_print hnames h
  have hargs : ∀ arg ∈ params.map Prod.snd, isPlain arg = true := List.forall_mem_map.mpr hplain
  have hlength : (params.map Prod.snd).length = (paramNames endpoint.route.pattern).length := by
    rw [hparams, List.length_map, List.length_map]
  have hunambiguous := routes_unambiguous r.service
  have hverb' : endpoint.route.handles r.method = true := by simp [Route.handles, hverb]
  have hfound := dispatch_print hunambiguous (mem_routes hmem) hverb' hargs hlength
  rw [hparams, zip_params, route_handler] at hfound
  refine ⟨endpoint, hendpoint, ?_⟩
  rw [hpath, urlPathname_print (hunambiguous.plain _ (mem_routes hmem)) hargs hlength, hfound]

theorem handle_forwards {adminApiKey : Option String} {req : Request} {r : ForwardRequest}
    (h : handle adminApiKey req = .forwards r) :
    ∃ handler params, dispatch req.verb req.path gatewayRoutes = .found handler params ∧
      (handler.guarded = true → canActivate adminApiKey req.apiKey = true) ∧
        (∀ param ∈ params, isPlain param.2 = true) ∧ req.accepted = true ∧
          handler.forward params = some r := by
  unfold handle at h
  split at h
  · cases h
  · split at h
    · cases h
    · cases h
    · next handler params hfound =>
      split at h
      · cases h
      · next hguard =>
        split at h
        · cases h
        · next hvalid =>
          refine ⟨handler, params, hfound, fun hguarded => ?_, ?_⟩
          · simpa [hguarded] using hguard
          · simp only [Bool.or_eq_true, Bool.not_eq_true', not_or, Bool.not_eq_false,
              List.all_eq_true] at hvalid
            refine ⟨hvalid.1, hvalid.2, ?_⟩
            cases hforward : handler.forward params with
            | none => rw [hforward] at h; cases h
            | some r' =>
              rw [hforward] at h
              cases h
              rfl

theorem gateway_names {req : Request} {handler : Handler} {params : Params}
    (h : dispatch req.verb req.path gatewayRoutes = .found handler params) :
    params.map Prod.fst = paramNames handler.route.pattern := by
  obtain ⟨route, hmem, hhandler, hnames⟩ := dispatch_names h
  obtain ⟨handler', -, rfl⟩ := List.mem_map.mp hmem
  rw [← hhandler, handler_route]
  exact hnames

theorem canActivate_iff {adminApiKey providedKey : Option String} :
    canActivate adminApiKey providedKey = true ↔
      ∃ key, key ≠ "" ∧ adminApiKey = some key ∧ providedKey = some key := by
  cases adminApiKey with
  | none => simp [canActivate]
  | some expectedKey =>
    cases providedKey with
    | none => simp [canActivate]
    | some key =>
      simp only [canActivate, Option.getD_some, Option.any_some, Bool.and_eq_true,
        decide_eq_true_eq, Option.some.injEq]
      constructor
      · rintro ⟨-, hkey, rfl⟩
        exact ⟨key, hkey, rfl, rfl⟩
      · rintro ⟨key', hkey', rfl, rfl⟩
        exact ⟨hkey', hkey', rfl⟩

/-- Whatever the path is: a request that is forwarded is handled by the method of the service that
the method of the gateway stands for, with the parameters of the path, which are safe; and who calls
a guarded method has the key. -/
theorem forwarded_handled {adminApiKey : Option String} {req : Request} {r : ForwardRequest}
    (h : handle adminApiKey req = .forwards r) :
    ∃ handler endpoint params, dispatch req.verb req.path gatewayRoutes = .found handler params ∧
      handler.endpoint = some endpoint ∧
        dispatch r.method (urlPathname r.path) r.service.routes = .found endpoint params ∧
          (∀ param ∈ params, SAFE_ID_PATTERN param.2 = true) ∧
            (handler.guarded = true →
              ∃ key, key ≠ "" ∧ adminApiKey = some key ∧ req.apiKey = some key) := by
  obtain ⟨handler, params, hfound, hguard, hplain, -, hforward⟩ := handle_forwards h
  obtain ⟨endpoint, hendpoint, hhandled⟩ :=
    forward_handled (gateway_names hfound) hplain hforward
  exact ⟨handler, endpoint, params, hfound, hendpoint, hhandled, hplain,
    fun hguarded => canActivate_iff.mp (hguard hguarded)⟩

def patchesBadge : Request :=
  ⟨"PATCH", "/Admin/badges/bdg%5Felite/".toList, some "secret", true⟩

theorem forwarded_handled_badge : ∃ handler endpoint params,
    dispatch patchesBadge.verb patchesBadge.path gatewayRoutes = .found handler params ∧
      handler.endpoint = some endpoint ∧
        dispatch "PATCH" (urlPathname "/admin/badges/bdg_elite".toList)
          MicroserviceName.loyalty.routes = .found endpoint params := by
  have hforwards : handle (some "secret") patchesBadge =
      .forwards ⟨.loyalty, "PATCH", "/admin/badges/bdg_elite".toList⟩ := by decide +kernel
  obtain ⟨handler, endpoint, params, hfound, hendpoint, hhandled, -⟩ := forwarded_handled hforwards
  exact ⟨handler, endpoint, params, hfound, hendpoint, hhandled⟩

/-! ## What is reached from outside -/

/-- A request to the gateway is handled by a method of a service in the end. -/
def Reached (adminApiKey : Option String) (req : Request) (endpoint : Endpoint) (params : Params) :
    Prop :=
  ∃ r, handle adminApiKey req = .forwards r ∧
    dispatch r.method (urlPathname r.path) r.service.routes = .found endpoint params

def Endpoint.isHealth : Endpoint → Bool
  | .purchaseHealth => true
  | .loyaltyHealth => true
  | .cashbackHealth => true
  | _ => false

/-- For customers, and for Paystack. -/
def Endpoint.isPublic : Endpoint → Bool
  | .create => true
  | .getAchievementState => true
  | .listBanks => true
  | .handleWebhook => true
  | _ => false

theorem exists_handler {endpoint : Endpoint} (h : endpoint.isHealth = false) :
    ∃ handler : Handler, handler.endpoint = some endpoint := by
  have hall : ∀ handlers : List Handler, (handlers.any (·.endpoint = some endpoint)) = true →
      ∃ handler : Handler, handler.endpoint = some endpoint := by
    intro handlers hany
    obtain ⟨handler, -, hendpoint⟩ := List.any_eq_true.mp hany
    exact ⟨handler, of_decide_eq_true hendpoint⟩
  refine hall handlers ?_
  cases endpoint
  case purchaseHealth | loyaltyHealth | cashbackHealth => cases h
  all_goals decide

/-- The two methods take the same parameters, and the guard is on what is not public. -/
theorem endpoint_same {handler : Handler} {endpoint : Endpoint}
    (h : handler.endpoint = some endpoint) :
    paramNames handler.route.pattern = paramNames endpoint.route.pattern ∧
      handler.guarded = !endpoint.isPublic ∧ endpoint.isHealth = false ∧
        ∀ params, ∃ r, handler.forward params = some r := by
  cases handler
  case getHealth => cases h
  all_goals
    cases h
    exact ⟨rfl, rfl, rfl, fun _ => ⟨_, rfl⟩⟩

/-- A client reaches, with safe parameters and nothing else, the public methods of the services and,
with the key, all methods but their health checks. -/
theorem reached_iff (adminApiKey apiKey : Option String) (endpoint : Endpoint) (params : Params) :
    (∃ req, req.apiKey = apiKey ∧ Reached adminApiKey req endpoint params) ↔
      endpoint.isHealth = false ∧ params.map Prod.fst = paramNames endpoint.route.pattern ∧
        (∀ param ∈ params, SAFE_ID_PATTERN param.2 = true) ∧
          (endpoint.isPublic = true ∨
            ∃ key, key ≠ "" ∧ adminApiKey = some key ∧ apiKey = some key) := by
  constructor
  · rintro ⟨req, rfl, r, hforwards, hreached⟩
    obtain ⟨handler, params', hfound, hguard, hplain, -, hforward⟩ := handle_forwards hforwards
    have hnames := gateway_names hfound
    obtain ⟨endpoint', hendpoint, hhandled⟩ := forward_handled hnames hplain hforward
    rw [hreached] at hhandled
    cases hhandled
    obtain ⟨hsame, hguarded, hhealth, -⟩ := endpoint_same hendpoint
    refine ⟨hhealth, hnames.trans hsame, hplain, ?_⟩
    cases hpublic : endpoint.isPublic with
    | true => exact Or.inl rfl
    | false =>
      rw [hpublic] at hguarded
      exact Or.inr (canActivate_iff.mp (hguard hguarded))
  · rintro ⟨hhealth, hnames, hplain, hkey⟩
    obtain ⟨handler, hendpoint⟩ := exists_handler hhealth
    obtain ⟨hsame, hguarded, -, hforward⟩ := endpoint_same hendpoint
    obtain ⟨r, hr⟩ := hforward params
    have hnames' := hnames.trans hsame.symm
    have hroute : handler.route ∈ gatewayRoutes := List.mem_map_of_mem (mem_handlers handler)
    have hverb : handler.route.handles handler.route.verb = true := by simp [Route.handles]
    have hargs : ∀ arg ∈ params.map Prod.snd, isPlain arg = true := List.forall_mem_map.mpr hplain
    have hlength : (params.map Prod.snd).length = (paramNames handler.route.pattern).length := by
      rw [← hnames', List.length_map, List.length_map]
    have hfound := dispatch_print gatewayRoutes_unambiguous hroute hverb hargs hlength
    rw [← hnames', zip_params, handler_route] at hfound
    obtain ⟨endpoint', hendpoint', hhandled⟩ := forward_handled hnames' hplain hr
    rw [hendpoint] at hendpoint'
    cases hendpoint'
    refine ⟨⟨handler.route.verb, print handler.route.pattern (params.map Prod.snd), apiKey, true⟩,
      rfl, r, ?_, hhandled⟩
    have hactivate : (handler.guarded && !canActivate adminApiKey apiKey) = false := by
      rcases hkey with hpublic | hkey
      · rw [hguarded, hpublic]
        rfl
      · rw [canActivate_iff.mpr hkey, Bool.not_true, Bool.and_false]
    have hsafe : (params.all fun param => SAFE_ID_PATTERN param.2) = true :=
      List.all_eq_true.mpr hplain
    have hdecoded := decode_print (gatewayRoutes_unambiguous.plain _ hroute) hargs
    simp [handle, hdecoded, hfound, hactivate, hsafe, hr]

end Bumpa.Gateway
