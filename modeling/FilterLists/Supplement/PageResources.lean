/-
This file holds what is installed next to the containers for the video site: a script and a
stylesheet for its pages, and the code of the scriptlets that are recommended there.
-/

import FilterLists.Scriptlet.Catalog

namespace FilterLists.Supplement

/-! ### The page script -/

/-- The script for the pages: it takes advertisements out of what they load, keeps them from
loading more, and skips those that play. -/
def pageScript : String :=
  PageCode.join (PageCode.closure pageScriptLines) ++ "\n"
where
  pageScriptLines : List String := [
    "",
    "const AD_KEYS = ['adPlacements', 'playerAds', 'adSlots'];",
    "const PROMOTED = ['promotedSparklesWebRenderer', 'promotedVideoRenderer', "
      ++ "'compactPromotedVideoRenderer'];",
    "",
    "const parse = JSON.parse;",
    "JSON.parse = function () \x7b",
    "    const obj = parse.apply(this, arguments);",
    "    if (obj && obj.playerResponse) \x7b",
    "        for (const key of AD_KEYS) delete obj.playerResponse[key];",
    "    \x7d",
    "    const watch = obj && obj.contents && obj.contents.twoColumnWatchNextResults;",
    "    const list = watch && watch.results && watch.results.results;",
    "    if (list && Array.isArray(list.contents)) \x7b",
    "        list.contents = list.contents.filter((item) => !PROMOTED.some((key) => item[key]));",
    "    \x7d",
    "    return obj;",
    "\x7d;",
    "",
    "const isAdRequest = (url) =>",
    "    url.includes('/pagead/') ||",
    "    (url.includes('/get_video_info') && url.includes('adformat')) ||",
    "    url.includes('/stats/ads') ||",
    "    url.includes('/youtubei/v1/player/ad_break') ||",
    "    (url.includes('/youtubei/v1/log_event') && url.includes('adformat'));",
    "",
    "const fetch = window.fetch;",
    "window.fetch = function (input) \x7b",
    "    const url = typeof input === 'string' ? input : input && input.url;",
    "    if (typeof url === 'string' && isAdRequest(url)) return Promise.reject(new "
      ++ "Error('blocked'));",
    "    return fetch.apply(this, arguments);",
    "\x7d;",
    "",
    "const open = XMLHttpRequest.prototype.open;",
    "XMLHttpRequest.prototype.open = function (method, url) \x7b",
    "    if (typeof url === 'string' && isAdRequest(url)) throw new Error('blocked');",
    "    return open.apply(this, arguments);",
    "\x7d;",
    "",
    "const AD_SELECTORS = [",
    "    '.video-ads',",
    "    '.ytp-ad-module',",
    "    '.ytp-ad-player-overlay',",
    "    '#player-ads',",
    "    '.ytp-ad-overlay-container',",
    "    '.ytp-ad-message-container',",
    "    '.ytp-ad-overlay-slot',",
    "    'ytd-promoted-video-renderer',",
    "    'ytd-display-ad-renderer',",
    "    'ytd-promoted-sparkles-web-renderer',",
    "    'ytd-rich-item-renderer:has(ytd-display-ad-renderer)',",
    "    'ytd-ad-slot-renderer',",
    "    'ytm-promoted-video-renderer',",
    "    'ytd-companion-slot-renderer',",
    "    'ytd-action-companion-ad-renderer',",
    "    'ytd-banner-promo-renderer',",
    "    'ytd-video-masthead-ad-v3-renderer',",
    "    'ytd-primetime-promo-renderer',",
    "];",
    "",
    "function skipAds() \x7b",
    "    const skip = document.querySelector('.ytp-ad-skip-button, .ytp-ad-skip-button-modern');",
    "    if (skip) skip.click();",
    "    const close = document.querySelector('.ytp-ad-overlay-close-button');",
    "    if (close) close.click();",
    "    for (const selector of AD_SELECTORS) \x7b",
    "        document.querySelectorAll(selector).forEach((el) => el.remove());",
    "    \x7d",
    "    const video = document.querySelector('video');",
    "    if (video && document.querySelector('.ad-showing')) \x7b",
    "        video.currentTime = video.duration || 0;",
    "        video.play();",
    "    \x7d",
    "\x7d",
    "",
    "if (window.location.hostname.includes('youtube')) \x7b",
    "    let timer = setInterval(skipAds, 100);",
    "    window.addEventListener('yt-navigate-finish', () => \x7b",
    "        clearInterval(timer);",
    "        timer = setInterval(skipAds, 100);",
    "    \x7d);",
    "\x7d",
    "",
    "Object.defineProperty(navigator, 'sendBeacon', \x7b value: () => true \x7d);"]

/-! ### The stylesheet -/

/-- A rule of a stylesheet, with one declaration. -/
structure StyleRule where
  selectors : List String
  declaration : String
  deriving DecidableEq, Repr

/-- A rule of a stylesheet as text. -/
def StyleRule.print (rule : StyleRule) : String :=
  String.intercalate ",\n" rule.selectors ++ " \x7b\n    " ++ rule.declaration ++ "\n\x7d\n"

/-- A rule that hides what some selectors find. -/
def StyleRule.hiding (selectors : List String) : StyleRule where
  selectors := selectors
  declaration := "display: none !important;"

/-- What the stylesheet hides. -/
def styleRules : List StyleRule :=
  [.hiding [".video-ads", ".ytp-ad-module", ".ytp-ad-player-overlay", ".ytp-ad-overlay-container",
      ".ytp-ad-message-container", ".ytp-ad-overlay-slot", ".ytp-ad-overlay-close-button",
      ".ytp-ad-overlay-image", ".ytp-ad-text-overlay", ".ytp-ad-preview-container",
      ".ytp-ad-progress-list"],
    .hiding ["ytd-promoted-video-renderer", "ytd-display-ad-renderer",
      "ytd-promoted-sparkles-web-renderer",
      "ytd-rich-item-renderer:has(ytd-display-ad-renderer)", "ytd-ad-slot-renderer",
      "ytm-promoted-video-renderer", "ytd-companion-slot-renderer",
      "ytd-action-companion-ad-renderer",
      "ytd-engagement-panel-section-list-renderer[target-id=\"engagement-panel-ads\"]",
      "#masthead-ad", "#player-ads"],
    .hiding ["ytd-banner-promo-renderer", "ytd-video-masthead-ad-v3-renderer",
      "ytd-primetime-promo-renderer", "tp-yt-paper-dialog:has(ytd-mealbar-promo-renderer)",
      "ytd-statement-banner-renderer", "ytd-mealbar-promo-renderer"],
    .hiding ["ytd-reel-video-renderer:has(ytd-ad-slot-renderer)",
      "ytm-reel-item-renderer:has(ytm-ad-slot-renderer)",
      "ytd-playlist-panel-video-renderer:has([aria-label*=\"Ad\"])", ".ytp-ad-badge",
      ".badge-style-type-ad"],
    { selectors := ["ytd-rich-grid-renderer #contents:has(ytd-display-ad-renderer)"]
      declaration := "margin-top: 0 !important;" },
    .hiding [".ytp-ad-player-overlay-skip-or-preview", ".ytp-ad-player-overlay-progress-bar",
      ".ytp-ad-player-overlay-instream-info"]]

/-- The stylesheet for the pages. -/
def stylesheet : String :=
  String.intercalate "\n" (styleRules.map StyleRule.print)

/-! ### The recommended scriptlets -/

/-- The calls that are recommended for the video site. -/
def presets : List Scriptlet.Call :=
  [{ name := "json-prune"
     arguments := ["playerResponse.adPlacements", "playerResponse.playerAds", "adSlots"] },
    { name := "set-constant"
      arguments := ["ytInitialPlayerResponse.adPlacements", "undefined"] },
    { name := "set-constant"
      arguments := [
        "ytInitialData.contents.twoColumnWatchNextResults.results.results.contents.[]."
          ++ "promotedSparklesWebRenderer",
        "undefined"] },
    { name := "abort-on-property-read", arguments := ["playerResponse.adPlacements"] },
    { name := "abort-current-inline-script", arguments := ["playerResponse", "adPlacements"] },
    { name := "remove-attr", arguments := ["id", "[id^=\"player-ads\"]"] },
    { name := "remove-attr", arguments := ["id", "[id^=\"masthead-ad\"]"] }]

/-- The code of the recommended calls, unless the catalog lacks a scriptlet that one of them
needs. -/
def presetScript (catalog : Scriptlet.Catalog) : Except Scriptlet.UnknownScriptlet String := do
  let codes ← presets.mapM fun call => call.code? catalog
  return String.join codes

end FilterLists.Supplement
