/-
This file holds the templates of the built-in scriptlets, which is the code that runs in pages. It
is data: the library copies it out and never looks into it.
-/

import FilterLists.Scriptlet.Template

namespace FilterLists.Scriptlet.Builtin

/-- Takes properties out of everything that the page parses as JSON. -/
def jsonPrune : Template where
  parameters := "...paths"
  body := [
    "const parse = JSON.parse;",
    "JSON.parse = new Proxy(parse, \x7b",
    "    apply(target, self, args) \x7b",
    "        const obj = Reflect.apply(target, self, args);",
    "        if (obj && typeof obj === 'object') \x7b",
    "            for (const path of paths) \x7b",
    "                const keys = path.split('.');",
    "                const last = keys.pop();",
    "                let node = obj;",
    "                for (const key of keys) \x7b",
    "                    if (!node[key]) \x7b node = null; break; \x7d",
    "                    node = node[key];",
    "                \x7d",
    "                if (node && last) delete node[last];",
    "            \x7d",
    "        \x7d",
    "        return obj;",
    "    \x7d,",
    "\x7d);"]

/-- Gives a property a fixed value that the page cannot change. -/
def setConstant : Template where
  setup := [
    "const constants = \x7b",
    "    undefined: undefined,",
    "    null: null,",
    "    false: false,",
    "    true: true,",
    "    noopFunc: function () \x7b\x7d,",
    "    trueFunc: function () \x7b return true; \x7d,",
    "    falseFunc: function () \x7b return false; \x7d,",
    "    '\"\"': '',",
    "\x7d;"]
  parameters := "property, raw"
  body := [
    "if (!property) return;",
    "let value;",
    "if (Object.prototype.hasOwnProperty.call(constants, raw)) value = constants[raw];",
    "else if (raw === '[]') value = [];",
    "else if (raw === '\x7b\x7d') value = \x7b\x7d;",
    "else if (raw !== '' && !isNaN(raw)) value = Number(raw);",
    "else value = raw;",
    "const keys = property.split('.');",
    "const last = keys.pop();",
    "let owner = window;",
    "for (const key of keys) owner = owner[key] = owner[key] || \x7b\x7d;",
    "Object.defineProperty(owner, last, \x7b value, configurable: false, writable: false \x7d);"]

/-- Stops whatever code reads a property. -/
def abortOnPropertyRead : Template where
  parameters := "property"
  body := [
    "if (!property) return;",
    "const keys = property.split('.');",
    "const last = keys.pop();",
    "let owner = window;",
    "for (const key of keys) \x7b",
    "    owner = owner[key];",
    "    if (!owner) return;",
    "\x7d",
    "Object.defineProperty(owner, last, \x7b",
    "    get() \x7b throw new ReferenceError(property); \x7d,",
    "    set() \x7b\x7d,",
    "\x7d);"]

/-- Stops whatever code writes a property. -/
def abortOnPropertyWrite : Template where
  parameters := "property"
  body := [
    "if (!property) return;",
    "const keys = property.split('.');",
    "const last = keys.pop();",
    "let owner = window;",
    "for (const key of keys) \x7b",
    "    owner = owner[key];",
    "    if (!owner) return;",
    "\x7d",
    "Object.defineProperty(owner, last, \x7b",
    "    get() \x7b return undefined; \x7d,",
    "    set() \x7b throw new ReferenceError(property); \x7d,",
    "\x7d);"]

/-- Stops inline scripts with a given text when they read a property. -/
def abortCurrentInlineScript : Template where
  parameters := "property, search"
  body := [
    "if (!property) return;",
    "const needle = search ? new RegExp(search) : null;",
    "const keys = property.split('.');",
    "const last = keys.pop();",
    "let owner = window;",
    "for (const key of keys) \x7b",
    "    owner = owner[key];",
    "    if (!owner) return;",
    "\x7d",
    "let value = owner[last];",
    "Object.defineProperty(owner, last, \x7b",
    "    get() \x7b",
    "        const script = document.currentScript;",
    "        if (script && !script.src && (!needle || needle.test(script.textContent))) \x7b",
    "            throw new ReferenceError(property);",
    "        \x7d",
    "        return value;",
    "    \x7d,",
    "    set(next) \x7b value = next; \x7d,",
    "\x7d);"]

/-- Keeps the page from listening to some events with some handlers. -/
def preventAddEventListener : Template where
  parameters := "eventType, handler"
  body := [
    "const add = EventTarget.prototype.addEventListener;",
    "EventTarget.prototype.addEventListener = function (type, listener, options) \x7b",
    "    const typeMatches = !eventType || type === eventType;",
    "    const handlerMatches = !handler || (listener && String(listener).includes(handler));",
    "    if (typeMatches && handlerMatches) return;",
    "    return add.call(this, type, listener, options);",
    "\x7d;"]

/-- Takes an attribute off elements, also off those that come later. -/
def removeAttr : Template where
  parameters := "attr, selector"
  body := [
    "if (!attr) return;",
    "const sweep = () => \x7b",
    "    for (const el of document.querySelectorAll(selector || `[$\x7battr\x7d]`)) \x7b",
    "        el.removeAttribute(attr);",
    "    \x7d",
    "\x7d;",
    "if (document.readyState === 'loading') document.addEventListener('DOMContentLoaded', sweep);",
    "else sweep();",
    "new MutationObserver(sweep).observe(document.documentElement, \x7b childList: true, "
      ++ "subtree: true \x7d);"]

/-- Sets an attribute of elements, also of those that come later. -/
def setAttr : Template where
  parameters := "selector, attr, value"
  body := [
    "if (!selector || !attr) return;",
    "const apply = () => \x7b",
    "    for (const el of document.querySelectorAll(selector)) \x7b",
    "        el.setAttribute(attr, value || '');",
    "    \x7d",
    "\x7d;",
    "if (document.readyState === 'loading') document.addEventListener('DOMContentLoaded', apply);",
    "else apply();",
    "new MutationObserver(apply).observe(document.documentElement, \x7b childList: true, "
      ++ "subtree: true \x7d);"]

/-- Takes classes off elements, also off those that come later. -/
def removeClass : Template where
  parameters := "className, selector"
  body := [
    "if (!className) return;",
    "const classes = className.split(/\\s+/);",
    "const sweep = () => \x7b",
    "    for (const el of document.querySelectorAll(selector || '*')) \x7b",
    "        el.classList.remove(...classes);",
    "    \x7d",
    "\x7d;",
    "if (document.readyState === 'loading') document.addEventListener('DOMContentLoaded', sweep);",
    "else sweep();",
    "new MutationObserver(sweep).observe(document.documentElement, \x7b",
    "    childList: true,",
    "    subtree: true,",
    "    attributes: true,",
    "    attributeFilter: ['class'],",
    "\x7d);"]

/-- Fails requests to some addresses. -/
def preventXhr : Template where
  parameters := "pattern"
  body := [
    "const needle = pattern ? new RegExp(pattern) : null;",
    "const open = XMLHttpRequest.prototype.open;",
    "XMLHttpRequest.prototype.open = function (method, url) \x7b",
    "    if (needle && needle.test(String(url))) throw new Error('xhr blocked');",
    "    return open.apply(this, arguments);",
    "\x7d;"]

/-- Fails fetches from some addresses. -/
def preventFetch : Template where
  parameters := "pattern"
  body := [
    "const needle = pattern ? new RegExp(pattern) : null;",
    "const fetch = window.fetch;",
    "window.fetch = function (input, init) \x7b",
    "    const url = typeof input === 'string' ? input : input.url;",
    "    if (needle && needle.test(url)) return Promise.reject(new Error('fetch blocked'));",
    "    return fetch.apply(this, arguments);",
    "\x7d;"]

/-- Keeps the page from scheduling some callbacks once. -/
def noSetTimeoutIf : Template where
  parameters := "pattern, delay"
  body := [
    "const needle = pattern ? new RegExp(pattern) : null;",
    "const wanted = delay ? parseInt(delay, 10) : null;",
    "const schedule = window.setTimeout;",
    "window.setTimeout = function (callback, timeout) \x7b",
    "    if (needle && needle.test(String(callback)) && (wanted === null || timeout === "
      ++ "wanted)) return;",
    "    return schedule.apply(this, arguments);",
    "\x7d;"]

/-- Keeps the page from scheduling some callbacks again and again. -/
def noSetIntervalIf : Template where
  parameters := "pattern, delay"
  body := [
    "const needle = pattern ? new RegExp(pattern) : null;",
    "const wanted = delay ? parseInt(delay, 10) : null;",
    "const schedule = window.setInterval;",
    "window.setInterval = function (callback, timeout) \x7b",
    "    if (needle && needle.test(String(callback)) && (wanted === null || timeout === "
      ++ "wanted)) return;",
    "    return schedule.apply(this, arguments);",
    "\x7d;"]

/-- Writes a text to the console. -/
def log : Template where
  parameters := "text"
  body := [
    "console.log(`[content-blocker] $\x7btext || 'log scriptlet executed'\x7d`);"]

end FilterLists.Scriptlet.Builtin
