/-
This file holds the rules that are added for the video site, whatever lists are selected. They
are written down here and not read from any list: rules that block the endpoints of
advertisements and statistics, which follow the standard rules of the lists, and one rule that
hides elements of the player, which comes last in the third container.
-/

import FilterLists.Containers
import FilterLists.Pattern.Translation

namespace FilterLists.Supplement

/-! ### Blocked loads -/

/-- The pages on which the endpoints are blocked. -/
def siteDomains : List String :=
  ["youtube.com", "youtube-nocookie.com", "youtu.be"]

/-- Where advertisements and their statistics are loaded from. -/
def endpoints : List String :=
  ["doubleclick.net", "googleadservices.com", "googlesyndication.com", "google-analytics.com",
    "googletagmanager.com", "googletagservices.com", "youtube.com/api/stats/ads",
    "youtube.com/api/stats/qoe", "youtube.com/pagead", "youtube.com/ptracking",
    "youtube.com/get_midroll_info"]

/-- The pages on which the address filters apply: the media host is one of them. -/
def mediaDomains : List String :=
  ["youtube.com", "youtube-nocookie.com", "youtu.be", "googlevideo.com"]

/-- Addresses of advertisements, as URL filters. -/
def urlFilters : List String :=
  [".*/pagead/", ".*/get_video_info.*adformat", ".*/stats/ads", ".*/api/stats/qoe.*adformat",
    ".*youtube\\.com.*/ad_companion", ".*youtube\\.com.*/generate_204",
    ".*youtube\\.com.*/get_midroll_", ".*youtube\\.com/api/stats/playback.*ad",
    ".*googlevideo\\.com/videoplayback.*ctier=L",
    ".*youtube\\.com/youtubei/v1/player/ad_break", ".*/youtubei/v1/log_event.*adformat"]

/-- The rule that blocks an endpoint, wherever it stands in an address. -/
def endpointRule (endpoint : String) : Rule where
  action := .block
  trigger := { urlFilter := ".*" ++ Pattern.quoteText endpoint, ifDomain := siteDomains }

/-- The rule that blocks what a URL filter finds. -/
def urlFilterRule (urlFilter : String) : Rule where
  action := .block
  trigger := { urlFilter, ifDomain := mediaDomains }

/-- The rules that block loads. -/
def blockRules : List Rule :=
  endpoints.map endpointRule ++ urlFilters.map urlFilterRule

/-! ### Hidden elements -/

/-- The pages on which elements are hidden. -/
def pageDomains : List String :=
  ["youtube.com", "youtu.be", "youtube-nocookie.com"]

/-- What is hidden. -/
def selectors : List String :=
  [".video-ads", ".ytp-ad-module", ".ytp-ad-player-overlay", "#masthead-ad",
    "ytd-promoted-video-renderer", "ytd-display-ad-renderer",
    "ytd-promoted-sparkles-web-renderer", "#player-ads"]

/-- The generated rules: one that hides all elements. -/
def hidingRules : List Rule :=
  [{ action := .hide (String.intercalate ", " selectors)
     trigger := { urlFilter := everyAddress, ifDomain := pageDomains } }]

end FilterLists.Supplement

namespace FilterLists

/-- The rules with the supplementary ones after the standard rules. -/
def TieredRules.supplemented (rules : TieredRules) : TieredRules :=
  { rules with standard := rules.standard ++ Supplement.blockRules }

/-- Distributes rules and all supplementary ones over containers. -/
def distributeSupplemented (limits : Limits) (rules : TieredRules) :
    Except DistributionError Plan :=
  distribute limits rules.supplemented Supplement.hidingRules

end FilterLists
